/-
  Expansion without its log and without surroundings that change.

  * `Views.Runs`: a log in which views run only as a predicate says.
  * `Leads`: a step of the expansion with its result and the surroundings that it leaves; one rule
    for each way in which steps are put together.
  * `Expander.Place`: an element and where it stands. `Expander.replaced` tells what takes its
    place, `Expander.expanded?` what is left of it.
  * `Expander.Reaches`: the elements that the expansion of an element comes to, each with the
    elements on the way there.
  * `leads_expandNode`: the expansion of an element gives `expanded?` and leaves the surroundings in
    which it began, and the views that run are those of elements that it reaches.
-/
import ComponentMarkup.Proofs.TemplateApplication

namespace ComponentMarkup

/-! ## Logs -/

/-- Whether an event is the run of a view. -/
def Event.isRun : Event → Bool
  | .running .. => true
  | _ => false

/-- A log in which views run only as `P` says. What a view logs itself stands right after the event
that it runs. -/
inductive Views.Runs (views : Views) (P : String → Surroundings → Bindings → Prop) :
    List Event → Prop
  | nil : Runs views P []
  | event {e : Event} {rest : List Event} (he : e.isRun = false) (h : Runs views P rest) :
      Runs views P (e :: rest)
  | view {name : String} {s : Surroundings} {bindings : Bindings} {rest : List Event}
      (hp : P name s bindings) (h : Runs views P rest) :
      Runs views P (.running name s bindings :: ((views name bindings).events ++ rest))

namespace Views.Runs

variable {views : Views} {P Q : String → Surroundings → Bindings → Prop} {log more : List Event}

theorem append (h : views.Runs P log) (h' : views.Runs P more) : views.Runs P (log ++ more) := by
  induction h with
  | nil => exact h'
  | event he _ ih => exact .event he ih
  | view hp _ ih =>
    rw [List.cons_append, List.append_assoc]
    exact .view hp ih

theorem mono (hpq : ∀ name s bindings, P name s bindings → Q name s bindings)
    (h : views.Runs P log) : views.Runs Q log := by
  induction h with
  | nil => exact .nil
  | event he _ ih => exact .event he ih
  | view hp _ ih => exact .view (hpq _ _ _ hp) ih

theorem single {e : Event} (he : e.isRun = false) : views.Runs P [e] := .event he .nil

theorem bind {α β : Type} {l : Logged α} {f : α → Logged β} (h : views.Runs P l.events)
    (h' : views.Runs P (f l.value).events) : views.Runs P (l >>= f).events :=
  h.append h'

end Views.Runs

/-! ## Steps -/

/-- A step that is taken in the surroundings `s` gives `a` and leaves the surroundings `t`, and
views run only as `P` says. -/
structure Leads {α : Type} (views : Views) (P : String → Surroundings → Bindings → Prop)
    (m : Expanding α) (s : Surroundings) (a : α) (t : Surroundings) : Prop where
  value : (m.run s).value = (a, t)
  runs : views.Runs P (m.run s).events

namespace Leads

variable {α β : Type} {views : Views} {P Q : String → Surroundings → Bindings → Prop}
  {s t u : Surroundings} {a : α} {b : β} {m m' : Expanding α}

theorem pure : Leads views P (pure a) s a s := ⟨rfl, .nil⟩

theorem bind {f : α → Expanding β} (h : Leads views P m s a t) (h' : Leads views P (f a) t b u) :
    Leads views P (m >>= f) s b u := by
  have hrun : (m >>= f).run s = m.run s >>= fun r => (f r.1).run r.2 := rfl
  constructor
  · rw [hrun, Logged.value_bind, h.value]
    exact h'.value
  · rw [hrun]
    refine h.runs.bind ?_
    rw [h.value]
    exact h'.runs

theorem get : Leads views P get s s s := ⟨rfl, .nil⟩

theorem modify {f : Surroundings → Surroundings} (h : f s = t) :
    Leads views P (modify f : Expanding PUnit) s ⟨⟩ t :=
  ⟨congrArg (PUnit.unit, ·) h, .nil⟩

theorem lift {l : Logged α} (h : views.Runs P l.events) :
    Leads views P (liftM l : Expanding α) s l.value s :=
  ⟨rfl, h.append .nil⟩

theorem ite {c : Prop} [Decidable c] (h : c → Leads views P m s a t)
    (h' : ¬ c → Leads views P m' s a t) : Leads views P (if c then m else m') s a t := by
  by_cases hc : c
  · rw [if_pos hc]; exact h hc
  · rw [if_neg hc]; exact h' hc

theorem mono (hpq : ∀ name s bindings, P name s bindings → Q name s bindings)
    (h : Leads views P m s a t) : Leads views Q m s a t :=
  ⟨h.value, h.runs.mono hpq⟩

end Leads

namespace Expander

variable (x : Expander)

/-! ## Elements in their places -/

/-- An element to be expanded, and where it stands. -/
structure Place where
  node : Node
  surroundings : Surroundings
  scope : Option String

/-- The surroundings in which the template of an element runs: inside of the element, and with its
class token if components with its tag add one. -/
def inside (place : Place) : Surroundings :=
  let entered := place.surroundings.enter place.node.name
  if x.config.classes.participates place.node.name then
    entered.enterComponent (x.config.classes.token place.node)
  else entered

/-- The classes of a component. -/
def classesFor (place : Place) : ClassSet :=
  (x.config.classes.compute place.node (x.inside place).tokens place.scope).value

/-- The bindings of a component. -/
def bindingsFor (place : Place) : Bindings :=
  Bindings.ofNode place.node (x.inside place).parents (x.classesFor place)
    (Markup.Writer.renderInner ⟨x.config.output, x.config.markup⟩ place.node)

/-- The templates to try for an element. -/
def templates (place : Place) : List String :=
  (x.candidates (place.surroundings.enter place.node.name).path place.node.name).value

/-- The element in the place of a component, with the scope of its children; none if there is no
template for the element that can be used. -/
def applied? (place : Place) : Option (Node × Option String) :=
  (x.applyTemplate (x.inside place) place.node (x.templates place) place.scope).value.toOption

/-- The element whose children are expanded in the place of an element, and where they stand. -/
def replaced (place : Place) : Place :=
  match x.applied? place with
  | some (root, inner) => ⟨root, x.inside place, inner⟩
  | none => ⟨place.node, place.surroundings.enter place.node.name, place.scope⟩

/-- The element, unless it is dropped for want of content. -/
def kept? (node : Node) : Option Node :=
  if node.isEmpty && !x.config.markup.keepsEmpty node.name then none else some node

/-- The texts, and what a step leaves of the elements. -/
def mapChildren (step : Node → Option Node) : List Child → List Child
  | [] => []
  | .text s :: rest => .text s :: mapChildren step rest
  | .element node :: rest =>
    match step node with
    | some kept => .element kept :: mapChildren step rest
    | none => mapChildren step rest

/-- What is left of an element that is expanded down to the given depth. -/
def expanded? : Nat → Place → Option Node
  | 0, place => some place.node
  | depth + 1, place =>
    let inner := x.replaced place
    x.kept? ⟨inner.node.name, inner.node.attributes,
      mapChildren (fun node => expanded? depth { inner with node }) inner.node.children⟩

/-- An element around another one, as it is before a template is applied to it, and whether one
is. -/
structure Enclosing where
  node : Node
  applied : Bool

/-- The expansion of an element comes to another one below the elements `around`, the outermost
first. -/
inductive Reaches : Place → List Enclosing → Place → Prop
  | start {place : Place} : Reaches place [] place
  | step {place target : Place} {node : Node} {around : List Enclosing}
      (hc : .element node ∈ (x.replaced place).node.children)
      (h : Reaches { x.replaced place with node } around target) :
      Reaches place (⟨place.node, (x.applied? place).isSome⟩ :: around) target

/-- The expansion of an element down to a depth comes to an element that a view runs for. -/
def RunsBelow (depth : Nat) (place : Place) (name : String) (s : Surroundings)
    (bindings : Bindings) : Prop :=
  ∃ around target, x.Reaches place around target ∧ around.length < depth ∧
    name ∈ x.templates target ∧ s = x.inside target ∧
    bindings = x.bindingsFor target

variable {x} {P : String → Surroundings → Bindings → Prop} {place : Place} {s : Surroundings}

theorem replaced_of_none (h : x.applied? place = none) : x.replaced place =
    ⟨place.node, place.surroundings.enter place.node.name, place.scope⟩ := by
  rw [replaced, h]

theorem replaced_of_some {root : Node} {inner : Option String}
    (h : x.applied? place = some (root, inner)) :
    x.replaced place = ⟨root, x.inside place, inner⟩ := by
  rw [replaced, h]

theorem applied?_eq (place : Place) : x.applied? place =
    (x.runFirst place.node.name (x.inside place) (x.bindingsFor place)
      (x.templates place)).value.toOption.bind fun run =>
        (fillSlot? place.node.children run.2).map
          (x.merged (x.classesFor place) place.node place.scope) :=
  toOption_applyTemplate ..

/-- An element without templates is no component. -/
theorem applied?_of_templates_nil (h : x.templates place = []) : x.applied? place = none := by
  rw [applied?_eq, h]
  rfl

/-- What takes the place of a component: the tree of a template, with the children in its slot, with
the attributes and classes of the component, and without the mark of a scope. -/
theorem of_applied? {result : Node × Option String} (h : x.applied? place = some result) :
    ∃ name tree filled, name ∈ x.templates place ∧
      (x.views name (x.bindingsFor place)).value = .ok tree ∧
      fillSlot? place.node.children tree = some filled ∧
      x.merged (x.classesFor place) place.node place.scope filled = result := by
  rw [applied?_eq] at h
  obtain ⟨⟨name, tree⟩, hrun, hmap⟩ := Option.bind_eq_some_iff.1 h
  obtain ⟨filled, hfill, hmerged⟩ := Option.map_eq_some_iff.1 hmap
  obtain ⟨hname, hview⟩ := value_of_runFirst hrun
  exact ⟨name, tree, filled, hname, hview, hfill, hmerged⟩

theorem leave_inside (place : Place) :
    (if x.config.classes.participates place.node.name then (x.inside place).leaveComponent
      else x.inside place) = place.surroundings.enter place.node.name := by
  unfold inside
  split <;> simp

/-! ## One element -/

theorem value_prune (node : Node) : (x.prune node).value = x.kept? node := by
  unfold prune kept?
  split <;> rfl

theorem runs_prune (node : Node) : x.views.Runs P (x.prune node).events := by
  unfold prune
  split
  · exact .single rfl
  · exact .nil

theorem runs_candidates (path : List String) (tag : String) :
    x.views.Runs P (x.candidates path tag).events := by
  have hresolve : x.views.Runs P (x.catalog.resolve path).events := by
    unfold Catalog.resolve
    split
    · exact .nil
    · exact .single rfl
  unfold candidates
  exact hresolve.append .nil

theorem runs_event (e : ComponentError) (tag : String) : x.views.Runs P [e.event tag] := by
  cases e <;> exact .single rfl

theorem runs_runFirst {tag : String} {bindings : Bindings} {names : List String}
    (h : ∀ name ∈ names, P name s bindings) :
    x.views.Runs P (x.runFirst tag s bindings names).events := by
  induction names with
  | nil => exact .nil
  | cons name names ih =>
    rw [runFirst, Logged.events_bind, Logged.events_bind, events_log, List.singleton_append]
    refine .view (h name (List.mem_cons_self ..)) ?_
    split
    · exact .nil
    · exact .event rfl (ih fun name hn => h name (List.mem_cons_of_mem _ hn))
    · exact .nil

theorem runs_applyTemplate
    (h : ∀ name ∈ x.templates place, P name (x.inside place) (x.bindingsFor place)) :
    x.views.Runs P
      (x.applyTemplate (x.inside place) place.node (x.templates place) place.scope).events := by
  unfold applyTemplate
  refine .bind (.single rfl) (.bind (runs_runFirst h) ?_)
  split
  · exact .nil
  · refine .bind (.single rfl) ?_
    split <;> exact .nil

/-- A component that participates has its token on the stack before its template runs. -/
theorem leads_enterComponent (place : Place) {α : Type} {m : PUnit → Expanding α} {a : α}
    {t : Surroundings} (h : Leads x.views P (m ⟨⟩) (x.inside place) a t) :
    Leads x.views P
      (if x.config.classes.participates place.node.name then do
        m (← modify (·.enterComponent (x.config.classes.token place.node)))
      else m ⟨⟩)
      (place.surroundings.enter place.node.name) a t := by
  refine .ite (fun hc => .bind (.modify ?_) h) fun hc => ?_
  · rw [inside, if_pos hc]
  · rwa [inside, if_neg hc] at h

/-- An entered element is replaced by what takes its place. From the surroundings of the children it
is one step back to those of the element. -/
theorem leads_replace (h : ∀ name ∈ x.templates place, P name (x.inside place)
      (x.bindingsFor place)) :
    ∃ hasToken, Leads x.views P (x.replace place.scope place.node)
        (place.surroundings.enter place.node.name)
        ⟨(x.replaced place).node, (x.replaced place).scope, hasToken⟩
        (x.replaced place).surroundings ∧
      (if hasToken then (x.replaced place).surroundings.leaveComponent
        else (x.replaced place).surroundings) = place.surroundings.enter place.node.name := by
  have hleave := leave_inside (x := x) place
  have hstart := Leads.lift (s := place.surroundings.enter place.node.name) <|
    runs_candidates (x := x) (P := P) (place.surroundings.enter place.node.name).path
      place.node.name
  have happly := Leads.lift (s := x.inside place) (runs_applyTemplate h)
  unfold replace
  cases hn : (x.templates place).isEmpty with
  | true =>
    rw [replaced_of_none (applied?_of_templates_nil (List.isEmpty_iff.1 hn))]
    refine ⟨false, .bind .get (.bind hstart ?_), rfl⟩
    rw [templates] at hn
    rw [if_pos hn]
    exact .pure
  | false =>
    cases ha :
      (x.applyTemplate (x.inside place) place.node (x.templates place) place.scope).value with
    | error e =>
      have hnone : x.applied? place = none := congrArg Except.toOption ha
      rw [replaced_of_none hnone]
      rw [templates] at hn ha happly
      refine ⟨false, .bind .get (.bind hstart ?_), rfl⟩
      rw [if_neg (Bool.not_eq_true _ ▸ hn)]
      extract_lets hasToken kept applied
      have happlied : Leads x.views P (applied ()) (x.inside place)
          ⟨place.node, place.scope, false⟩ (place.surroundings.enter place.node.name) := by
        refine .bind .get (.bind happly ?_)
        rw [ha]
        refine .bind (.lift (runs_event e _)) (.ite (fun hc => ?_) fun hc => ?_)
        · rw [if_pos hc] at hleave
          exact .bind (.modify hleave) .pure
        · rw [if_neg hc] at hleave
          rw [hleave]
          exact .pure
      exact leads_enterComponent place happlied
    | ok result =>
      obtain ⟨root, inner⟩ := result
      have hsome : x.applied? place = some (root, inner) := congrArg Except.toOption ha
      rw [replaced_of_some hsome]
      rw [templates] at hn ha happly
      refine ⟨_, .bind .get (.bind hstart ?_), hleave⟩
      rw [if_neg (Bool.not_eq_true _ ▸ hn)]
      extract_lets hasToken kept applied
      have happlied : Leads x.views P (applied ()) (x.inside place)
          ⟨root, inner, hasToken⟩ (x.inside place) := by
        refine .bind .get (.bind happly ?_)
        rw [ha]
        exact .pure
      exact leads_enterComponent place happlied

/-! ## An element with all below it -/

theorem leads_mapElements {step : Node → Expanding (Option Node)} {plain : Node → Option Node}
    {children : List Child}
    (h : ∀ node, .element node ∈ children → Leads x.views P (step node) s (plain node) s) :
    Leads x.views P (mapElements step children) s (mapChildren plain children) s := by
  induction children with
  | nil => exact .pure
  | cons child rest ih =>
    have hrest := ih fun node hn => h node (List.mem_cons_of_mem _ hn)
    cases child with
    | text t => exact .bind hrest .pure
    | element node =>
      refine .bind (h node (List.mem_cons_self ..)) ?_
      rw [mapChildren]
      cases plain node with
      | none => exact hrest
      | some kept => exact .bind hrest .pure

/-- The elements among the children are what the step leaves of elements. -/
theorem exists_of_mem_mapChildren {step : Node → Option Node} {children : List Child} {kept : Node}
    (h : .element kept ∈ mapChildren step children) :
    ∃ node, .element node ∈ children ∧ step node = some kept := by
  induction children with
  | nil => cases h
  | cons child rest ih =>
    have hrest (h : .element kept ∈ mapChildren step rest) :
        ∃ node, .element node ∈ child :: rest ∧ step node = some kept :=
      let ⟨node, hmem, hstep⟩ := ih h
      ⟨node, List.mem_cons_of_mem _ hmem, hstep⟩
    cases child with
    | text t =>
      rcases List.mem_cons.1 h with h | h
      · cases h
      · exact hrest h
    | element node =>
      rw [mapChildren] at h
      split at h
      next found hfound =>
        rcases List.mem_cons.1 h with h | h
        · cases h
          exact ⟨node, List.mem_cons_self .., hfound⟩
        · exact hrest h
      next => exact hrest h

/-- **An expanded element is what is left of it, and the surroundings are as before.** Views run
only for the elements that the expansion reaches. -/
theorem leads_expandNode (depth : Nat) (place : Place) :
    Leads x.views (x.RunsBelow depth place) (x.expandNode depth place.scope place.node)
      place.surroundings (x.expanded? depth place) place.surroundings := by
  induction depth generalizing place with
  | zero => exact .bind (.lift (.single rfl)) .pure
  | succ depth ih =>
    obtain ⟨hasToken, hreplace, hleave⟩ := leads_replace (P := x.RunsBelow (depth + 1) place)
      fun name hn => ⟨[], place, .start, Nat.succ_pos _, hn, rfl, rfl⟩
    have hchildren : Leads x.views (x.RunsBelow (depth + 1) place)
        (mapElements (x.expandNode depth (x.replaced place).scope) (x.replaced place).node.children)
        (x.replaced place).surroundings
        (mapChildren (fun node => x.expanded? depth { x.replaced place with node })
          (x.replaced place).node.children)
        (x.replaced place).surroundings := by
      refine leads_mapElements fun node hc => (ih { x.replaced place with node }).mono ?_
      rintro name s bindings ⟨around, target, hr, hlt, hrest⟩
      exact ⟨_, target, .step hc hr, Nat.succ_lt_succ hlt, hrest⟩
    have hprune : ∀ node, Leads x.views (x.RunsBelow (depth + 1) place) (liftM (x.prune node))
        place.surroundings (x.kept? node) place.surroundings := by
      intro node
      rw [← value_prune]
      exact .lift (runs_prune node)
    have hback : (place.surroundings.enter place.node.name).leave = place.surroundings :=
      Surroundings.leave_enter ..
    rw [expandNode]
    refine .bind (.modify rfl) (.bind hreplace (.bind hchildren (.ite (fun hc => ?_) fun hc => ?_)))
    · rw [if_pos hc] at hleave
      exact .bind (.modify hleave) (.bind (.modify hback) (hprune _))
    · rw [if_neg hc] at hleave
      rw [← hleave] at hback
      exact .bind (.modify hback) (hprune _)

/-- What is left of an element depends on the settings and on what components become. -/
theorem expanded?_congr {y : Expander} (happlied : ∀ place, y.applied? place = x.applied? place)
    (hconfig : y.config = x.config) (depth : Nat) (place : Place) :
    y.expanded? depth place = x.expanded? depth place := by
  have hreplaced (place : Place) : y.replaced place = x.replaced place := by
    unfold replaced inside
    rw [happlied, hconfig]
  induction depth generalizing place with
  | zero => rfl
  | succ depth ih =>
    rw [expanded?, expanded?, hreplaced, kept?, kept?, hconfig, funext fun node => ih _]

/-! ## Documents -/

/-- A document is expanded in the given surroundings, at the depth that is configured. -/
theorem value_expandIn (s : Surroundings) (root : Node) :
    (x.expandIn s root).value = (x.expanded? x.config.classes.maxDepth ⟨root, s, none⟩, s) :=
  (leads_expandNode x.config.classes.maxDepth ⟨root, s, none⟩).value

theorem value_expand (root : Node) : (x.expand root).value =
    x.expanded? x.config.classes.maxDepth ⟨root, .none, none⟩ := by
  rw [expand, ← bind_pure_comp, Logged.value_bind, value_expandIn]
  rfl

end Expander

end ComponentMarkup
