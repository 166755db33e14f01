/-
  The reports on the structure of a document.

  * `reports`: all that is reported on a token list, whether there is a tree or not.
  * `reports_eq`: the reports are about the tokens, one after another, about the elements that are
    left open, and about the top-level elements.
  * `filter_textOutside`: the texts that are reported are the visible ones where no element is open.
  * `filter_furtherRoot`, `exists_noRoot_iff`: what is reported on the top-level elements.
-/
import ComponentMarkup.Proofs.TokenSteps

namespace ComponentMarkup.Markup

/-- The code of the report on a problem. -/
def Problem.code : Problem → ErrorCode
  | .unclosed .. => .unclosedElement
  | .closedAround .. | .unmatched .. => .mismatchedEndTag
  | .stray .. => .strayEndTag
  | .noRoot => .missingRoot
  | .furtherRoot _ => .multipleRoots
  | .repeatedAttribute .. => .duplicateAttribute
  | .textOutside _ => .textOutsideRoot

theorem Problem.code_diagnostic (problem : Problem) :
    problem.diagnostic.code = some problem.code := by
  cases problem <;> rfl

/-- All reports on a token list: the warnings, if there is a tree. -/
def reports (voids : VoidTags) (tokens : List PlacedToken) : List Diagnostic :=
  match buildTree voids tokens with
  | .ok (_, warnings) => warnings
  | .error e => e.diagnostics

namespace Construction

variable {voids : VoidTags} {c : Construction} {placed : PlacedToken} {tokens : List PlacedToken}

/-! ## All reports -/

/-- The problems with the top-level elements. -/
def topProblems : List Span → List Problem
  | [] => [.noRoot]
  | _ :: further => further.map .furtherRoot

theorem roots_finish (c : Construction) : c.finish.roots.map Prod.snd = c.tops := by
  have htags : c.finish.tags = [] := by
    rw [finish, tags_close]
    exact List.drop_of_length_le (by simp [tags])
  have hopened : c.finish.opened = [] := List.map_eq_nil_iff.1 htags
  have htops : c.finish.tops = c.tops := tops_close _ _
  rw [tops, hopened] at htops
  simpa using htops

theorem allProblems_finish (c : Construction) : c.finish.allProblems =
    c.problems ++ c.tags.map (fun tag => .unclosed tag.1 tag.2) ++ topProblems c.tops := by
  have hproblems : c.finish.problems =
      c.problems ++ c.tags.map fun tag => .unclosed tag.1 tag.2 := by
    rw [finish, problems_close, tags, List.map_map]
    rfl
  have hall : c.finish.allProblems =
      c.finish.problems ++ topProblems (c.finish.roots.map Prod.snd) := by
    unfold allProblems
    split
    next hr => rw [hr]; rfl
    next hr => rw [hr, List.map_cons, topProblems, List.map_map]; rfl
  rw [hall, hproblems, roots_finish]

/-- The problems with a token list. -/
def problemsOf (voids : VoidTags) (tokens : List PlacedToken) : List Problem :=
  let c := tokens.foldl (process voids) .start
  (steps voids .start tokens).flatMap (fun step => step.1.found voids step.2) ++
    c.tags.map (fun tag => .unclosed tag.1 tag.2) ++ topProblems c.tops

/-- **The reports on a token list** are about its tokens, one after another, about the elements that
are left open, and about the top-level elements. -/
theorem reports_eq (voids : VoidTags) (tokens : List PlacedToken) :
    reports voids tokens = (problemsOf voids tokens).map Problem.diagnostic := by
  have hproblems : (tokens.foldl (process voids) .start).finish.allProblems =
      problemsOf voids tokens := by
    rw [allProblems_finish, problems_foldl]
    rfl
  rw [reports, buildTree, ← hproblems]
  split
  next hok =>
    split at hok
    next =>
      split at hok
      · cases hok
      · cases hok; rfl
    next => cases hok
  next herror =>
    split at herror
    next =>
      split at herror
      · cases herror; rfl
      · cases herror
    next => cases herror; rfl

/-! ## The top level -/

/-- The reports with a code other than that of elements that are left open are those on the tokens
and on the top-level elements. -/
theorem filter_reports {code : ErrorCode} (h : code ≠ .unclosedElement) :
    (reports voids tokens).filter (·.code = some code) =
      (((steps voids .start tokens).flatMap fun step => step.1.found voids step.2).filter
          (·.code = code) ++
        (topProblems (tokens.foldl (process voids) .start).tops).filter
          (·.code = code)).map Problem.diagnostic := by
  have hcode : ((fun d : Diagnostic => decide (d.code = some code)) ∘ Problem.diagnostic) =
      fun problem => decide (problem.code = code) := by
    funext problem
    simp [Problem.code_diagnostic]
  have hunclosed (tags : List (String × Span)) :
      (tags.map fun tag => Problem.unclosed tag.1 tag.2).filter (·.code = code) = [] := by
    refine List.filter_eq_nil_iff.2 fun problem hp => ?_
    obtain ⟨tag, -, rfl⟩ := List.mem_map.1 hp
    simp [Problem.code, Ne.symm h]
  rw [reports_eq, List.filter_map, hcode, problemsOf, List.filter_append, List.filter_append,
    hunclosed, List.append_nil]

theorem filter_found_textOutside (c : Construction) (placed : PlacedToken) :
    (c.found voids placed).filter (·.code = .textOutsideRoot) =
      if c.opened.isEmpty && placed.token.isVisible then [.textOutside placed.span] else [] := by
  cases ht : placed.token.text? with
  | some s =>
    have hvisible : placed.token.isVisible = Text.isVisible s := by
      rw [Token.isVisible, ht, Option.any_some]
    rw [found_of_text ht, hvisible]
    cases c.opened.isEmpty && Text.isVisible s <;> simp [Problem.code]
  | none =>
    have hvisible : placed.token.isVisible = false := by rw [Token.isVisible, ht, Option.any_none]
    rw [hvisible, Bool.and_false, if_neg Bool.false_ne_true, List.filter_eq_nil_iff]
    intro problem hp
    obtain ⟨_, _, rfl⟩ | ⟨_, _, _, rfl⟩ | ⟨_, _, _, rfl⟩ | ⟨_, rfl⟩ | ⟨-, htext⟩ :=
      forms_of_mem_found hp
    case inr.inr.inr.inr => simp [hvisible] at htext
    all_goals simp [Problem.code]

theorem filter_found (c : Construction) (tokens : List PlacedToken) :
    ((steps voids c tokens).flatMap fun step => step.1.found voids step.2).filter
        (·.code = .textOutsideRoot) =
      ((outside voids c tokens).filter (·.token.isVisible)).map (.textOutside ·.span) := by
  induction tokens generalizing c with
  | nil => rfl
  | cons placed rest ih =>
    rw [steps, List.flatMap_cons, List.filter_append, ih, filter_found_textOutside, outside_cons,
      List.filter_append, List.map_append]
    cases c.opened.isEmpty <;> cases hv : placed.token.isVisible <;> simp [hv]

/-- No problem with a token is one with the top level. -/
theorem filter_found_eq_nil {code : ErrorCode} (h : code = .multipleRoots ∨ code = .missingRoot) :
    ((steps voids .start tokens).flatMap fun step => step.1.found voids step.2).filter
      (·.code = code) = [] := by
  refine List.filter_eq_nil_iff.2 fun problem hp => ?_
  obtain ⟨step, -, hp⟩ := List.mem_flatMap.1 hp
  obtain ⟨_, _, rfl⟩ | ⟨_, _, _, rfl⟩ | ⟨_, _, _, rfl⟩ | ⟨_, rfl⟩ | ⟨rfl, -⟩ :=
    forms_of_mem_found hp <;> rcases h with rfl | rfl <;> simp [Problem.code]

/-- **The texts that are reported** are the visible ones where no element is open. -/
theorem filter_textOutside (voids : VoidTags) (tokens : List PlacedToken) :
    (reports voids tokens).filter (·.code = some .textOutsideRoot) =
      ((outside voids .start tokens).filter (·.token.isVisible)).map fun placed =>
        (Problem.textOutside placed.span).diagnostic := by
  have htop (spans : List Span) :
      (topProblems spans).filter (·.code = .textOutsideRoot) = [] := by
    cases spans <;> simp [topProblems, List.filter_eq_nil_iff, Problem.code]
  rw [filter_reports (by decide), filter_found, htop, List.append_nil, List.map_map]
  rfl

/-- **The top-level elements that are reported** are all but the first. -/
theorem filter_furtherRoot (voids : VoidTags) (tokens : List PlacedToken) :
    (reports voids tokens).filter (·.code = some .multipleRoots) =
      (tokens.foldl (process voids) .start).tops.tail.map fun span =>
        (Problem.furtherRoot span).diagnostic := by
  have htop (spans : List Span) :
      (topProblems spans).filter (·.code = .multipleRoots) = spans.tail.map .furtherRoot := by
    cases spans with
    | nil => rfl
    | cons first further => simp [topProblems, List.filter_eq_self, Problem.code]
  rw [filter_reports (by decide), filter_found_eq_nil (.inl rfl), htop, List.nil_append,
    List.map_map]
  rfl

/-- **A top-level element is missing** where there is none. -/
theorem filter_noRoot (voids : VoidTags) (tokens : List PlacedToken) :
    (reports voids tokens).filter (·.code = some .missingRoot) =
      if (tokens.foldl (process voids) .start).tops = [] then [Problem.noRoot.diagnostic]
      else [] := by
  have htop (spans : List Span) :
      (topProblems spans).filter (·.code = .missingRoot) =
        if spans = [] then [.noRoot] else [] := by
    cases spans with
    | nil => rfl
    | cons first further => simp [topProblems, List.filter_eq_nil_iff, Problem.code]
  rw [filter_reports (by decide), filter_found_eq_nil (.inr rfl), htop, List.nil_append]
  split <;> rfl

theorem exists_noRoot_iff (voids : VoidTags) (tokens : List PlacedToken) :
    (∃ d ∈ reports voids tokens, d.code = some .missingRoot) ↔
      (tokens.foldl (process voids) .start).tops = [] := by
  have hfilter := filter_noRoot voids tokens
  have hexists : (∃ d ∈ reports voids tokens, d.code = some .missingRoot) ↔
      (reports voids tokens).filter (·.code = some .missingRoot) ≠ [] := by
    simp [List.filter_eq_nil_iff]
  rw [hexists, hfilter]
  split
  next h => simp [h]
  next h => simp [h]

end Construction

end ComponentMarkup.Markup
