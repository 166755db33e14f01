/-
  Compiling with and without indentation.

  * `Expander.withFormat`: the same configuration but for the indentation.
  * `expandNode_withFormat`: it does not take part in the expansion, since what a view sees of the
    children of a component is never indented.
  * `compile_withFormat`: the two outputs of a document are read as trees that differ in the texts
    between the children of blocks only, and the indented one stays as it is when it is read and
    written again.
-/
import ComponentMarkup.Proofs.ExpandedTree
import ComponentMarkup.Proofs.Layout

namespace ComponentMarkup

namespace Markup.Writer

/-- The writer with or without indentation. -/
def withFormat (w : Writer) (format : Bool) : Writer :=
  { w with output := { w.output with format := format } }

variable (w : Writer) (format : Bool)

theorem writeChildren_withFormat (kept : Bool) (children : List Child) :
    (w.withFormat format).writeChildren kept children = w.writeChildren kept children := by
  induction children using Child.inductionOn generalizing kept with
  | nil => rfl
  | text s rest ih => rw [writeChildren, writeChildren, ih]
  | element node rest ih ih' =>
    rw [writeChildren, writeChildren, writeElement_none, writeElement_none, ih, ih']
    rfl

/-- What a view sees of the children of a component is never indented. -/
theorem renderInner_withFormat (node : Node) :
    (w.withFormat format).renderInner node = w.renderInner node :=
  writeChildren_withFormat ..

end Markup.Writer

namespace Expander

open Markup (ParseError parse)

/-- The configuration with or without indentation. -/
def withFormat (x : Expander) (format : Bool) : Expander :=
  { x with config := { x.config with output := { x.config.output with format := format } } }

/-! ## Expansion -/

section
variable (x : Expander) (format : Bool)

theorem runFirst_withFormat (tag : String) (s : Surroundings) (bindings : Bindings)
    (names : List String) :
    (x.withFormat format).runFirst tag s bindings names = x.runFirst tag s bindings names := by
  induction names with
  | nil => rfl
  | cons name names ih =>
    rw [runFirst, runFirst, ih]
    rfl

theorem applyTemplate_withFormat (s : Surroundings) (node : Node) (names : List String)
    (scope : Option String) :
    (x.withFormat format).applyTemplate s node names scope =
      x.applyTemplate s node names scope := by
  have hinner : Markup.Writer.renderInner
        ⟨(x.withFormat format).config.output, (x.withFormat format).config.markup⟩ node =
      Markup.Writer.renderInner ⟨x.config.output, x.config.markup⟩ node :=
    Markup.Writer.renderInner_withFormat ⟨x.config.output, x.config.markup⟩ format node
  unfold applyTemplate
  dsimp only
  simp only [hinner, runFirst_withFormat]
  rfl

theorem replace_withFormat (scope : Option String) (node : Node) :
    (x.withFormat format).replace scope node = x.replace scope node := by
  unfold replace
  simp only [applyTemplate_withFormat]
  rfl

/-- **The indentation does not take part in the expansion**, not even in its log. -/
theorem expandNode_withFormat (depth : Nat) (scope : Option String) (node : Node) :
    (x.withFormat format).expandNode depth scope node = x.expandNode depth scope node := by
  induction depth generalizing scope node with
  | zero => rfl
  | succ depth ih =>
    have hstep : ∀ scope, (x.withFormat format).expandNode depth scope = x.expandNode depth scope :=
      fun scope => funext (ih scope)
    rw [expandNode, expandNode, replace_withFormat]
    simp only [hstep]
    rfl

theorem expandDocument_withFormat (root : Node) :
    (x.withFormat format).expandDocument root = x.expandDocument root := by
  unfold expandDocument expand expandIn
  rw [expandNode_withFormat]
  rfl

end

/-! ## Compiled documents -/

variable {x : Expander}

/-- **Indentation changes blanks between the children of blocks only.** The expanded documents are
the same. If there is one, both outputs are read as trees that are equal without the texts between
the children of blocks; and the indented output is written again for the tree that is read from
it. -/
theorem compile_withFormat {sources : List (String × String)}
    (hviews : x.views = (StoredViews.ofList x.config.markup.voids sources).run)
    (hbody : x.config.output.preserveScriptBody = true)
    (hvoid : ∀ tag ∈ x.config.markup.voidTags, Markup.beginsRaw tag = false) (source : String) :
    (∀ root, ((x.withFormat true).expandDocument root).value =
        ((x.withFormat false).expandDocument root).value) ∧
      ((∃ e, ((x.withFormat false).compile source).value = .error e ∧
          ((x.withFormat true).compile source).value = .error e) ∨
        (((x.withFormat false).compile source).value = .ok "" ∧
          ((x.withFormat true).compile source).value = .ok "") ∨
        ∃ html formatted tree laid, ((x.withFormat false).compile source).value = .ok html ∧
          ((x.withFormat true).compile source).value = .ok formatted ∧
          (parse x.config.markup.voids html).value = .ok tree ∧
          (parse x.config.markup.voids formatted).value = .ok laid ∧
          laid.withoutLayout = tree.withoutLayout ∧
          (x.withFormat true).write laid = formatted) := by
  refine ⟨fun root => by rw [expandDocument_withFormat, expandDocument_withFormat], ?_⟩
  have havoid : x.config.markup.voids.AvoidsRaw := Markup.avoidsRaw_ofList hvoid
  have hx : x.views.GivesLegal x.config.markup.voids := hviews ▸ givesLegal_run havoid
  have hw : ∀ format, Markup.Writer.KeepsRaw
      ⟨(x.withFormat format).config.output, (x.withFormat format).config.markup⟩ :=
    fun _ => keepsRaw_of_not_beginsRaw hbody hvoid
  have hcompile : ∀ format, ((x.withFormat format).compile source).value =
      (x.read source).value.map fun root =>
        ((x.expandDocument root).value.map (x.withFormat format).write).getD "" := by
    intro format
    rw [value_compile]
    simp only [expandDocument_withFormat]
    rfl
  rw [hcompile, hcompile]
  cases hread : (x.read source).value with
  | error e => exact .inl ⟨e, rfl, rfl⟩
  | ok root =>
    cases he : (x.expandDocument root).value with
    | none => exact .inr (.inl ⟨by rw [Except.map, he]; rfl, by rw [Except.map, he]; rfl⟩)
    | some expanded =>
      have hl : expanded.isLegal x.config.markup.voids = true :=
        isLegal_of_expandDocument hx (isLegal_of_read havoid hread) he
      refine .inr (.inr ⟨(x.withFormat false).write expanded, (x.withFormat true).write expanded,
        expanded.normalize, (expanded.laidOut 0).normalize, by rw [Except.map, he]; rfl,
        by rw [Except.map, he]; rfl, (hw false).parse_writeElement hl,
        (hw true).parse_writeElement_some hl 0, expanded.withoutLayout_laidOut 0, ?_⟩)
      exact (hw true).writeElement_normalize_laidOut hl 0

theorem compile_withFormat_card :
    let x : Expander := ⟨{}, .ofNames "-" ["card"], (StoredViews.ofList (MarkupConfig.voids {})
      [("card", "<div><yield/></div>")]).run⟩
    let source := "<Card> <p>x <b>y</b></p><br></Card>"
    ((x.withFormat true).compile source).value =
        .ok "<div class=\"card\">\n  <p>x <b>y</b></p>\n  <br>\n</div>" ∧
      (∀ root, ((x.withFormat true).expandDocument root).value =
        ((x.withFormat false).expandDocument root).value) ∧
      ((∃ e, ((x.withFormat false).compile source).value = .error e ∧
          ((x.withFormat true).compile source).value = .error e) ∨
        (((x.withFormat false).compile source).value = .ok "" ∧
          ((x.withFormat true).compile source).value = .ok "") ∨
        ∃ html formatted tree laid, ((x.withFormat false).compile source).value = .ok html ∧
          ((x.withFormat true).compile source).value = .ok formatted ∧
          (parse x.config.markup.voids html).value = .ok tree ∧
          (parse x.config.markup.voids formatted).value = .ok laid ∧
          laid.withoutLayout = tree.withoutLayout ∧
          (x.withFormat true).write laid = formatted) :=
  ⟨by decide +kernel, compile_withFormat rfl rfl (by decide) _⟩

end Expander

end ComponentMarkup
