/-
  The reports on the structure of a document account for every tag.

  * `Diagnostic.marks`: the place that a report points to, with its code. `Diagnostic.cutsOff`,
    `Diagnostic.rejects`: reports on elements that an end tag comes around, and on end tags that fit
    no open element.
  * `Construction.Closes`: in a run, an end tag closes the element of an earlier start tag.
  * `countP_process`, `countP_foldl`: elements that are opened are open afterwards, or cut off, or
    closed. The account holds for one token, and so for a run.
  * `countP_endTag`: what is reported on an end tag is found when it is read.
  * `reports_account`: every start tag and every end tag is accounted for once.
-/
import Mathlib.Data.List.Nodup
import Mathlib.Logic.ExistsUnique
import ComponentMarkup.Proofs.StructureReports

namespace ComponentMarkup.Markup

namespace Diagnostic

/-- Whether a report has the code and points to the place, as the fault itself or as its context. -/
def marks (d : Diagnostic) (code : ErrorCode) (isPrimary : Bool) (span : Span) : Bool :=
  d.code == some code &&
    d.labels.any fun label => label.isPrimary == isPrimary && label.span == span

/-- A report on the element whose start tag is at the place, since an end tag comes around it. -/
def cutsOff (span : Span) (d : Diagnostic) : Bool :=
  d.marks .mismatchedEndTag false span && d.help.isSome

/-- A report on the end tag at the place, since no open element has its name. -/
def rejects (span : Span) (d : Diagnostic) : Bool :=
  d.marks .mismatchedEndTag true span && d.help.isNone

end Diagnostic

namespace Construction

variable {voids : VoidTags} {c : Construction} {placed start stop : PlacedToken}
  {tokens : List PlacedToken} {e : OpenElement} {s : Span}

/-! ## Closed elements -/

/-- The token is an end tag that closes the element, whose name it has. The open elements inside it
are reported, and those around it stay open. -/
def ClosesAt (voids : VoidTags) (c : Construction) (stop : PlacedToken) (e : OpenElement) : Prop :=
  ∃ tag inside outer, stop.token = .endTag tag ∧ Text.sameName e.name tag = true ∧
    c.opened = inside ++ e :: outer ∧
    (c.process voids stop).tags = outer.map OpenElement.tag ∧
    (c.process voids stop).problems =
      c.problems ++ inside.map fun o => .closedAround tag o.name stop.span o.span

theorem closesAt_iff : c.ClosesAt voids stop e ↔ c.closed? voids stop = some e := by
  constructor
  · rintro ⟨tag, inside, outer, htoken, -, ho, htags, -⟩
    cases acts voids c stop with
    | opens hstart =>
      rw [htoken] at hstart
      cases hstart
    | @closes _ inside' outer' e' _ _ hclosed ho' htags' =>
      have hlength : outer.length = outer'.length := by
        simpa using congrArg List.length (htags.symm.trans htags')
      have hsame := (List.append_inj' (ho.symm.trans ho') (by simp [hlength])).2
      rw [hclosed, (List.cons.inj hsame).1]
    | stays _ _ htags' =>
      have hlength := congrArg List.length (htags'.symm.trans htags)
      simp only [tags, ho, List.length_map, List.length_append, List.length_cons] at hlength
      omega
  · intro h
    cases acts voids c stop with
    | opens hstart =>
      rw [closed?_of_ne_endTag (by simp [hstart])] at h
      cases h
    | closes htoken hname hclosed ho htags hfound =>
      cases h.symm.trans hclosed
      exact ⟨_, _, _, htoken, hname, ho, htags, by rw [problems_process, hfound]⟩
    | stays _ hclosed =>
      rw [hclosed] at h
      cases h

/-- In the run over the tokens, `stop` closes the element that an earlier token, `start`, opens. -/
def Closes (voids : VoidTags) (tokens : List PlacedToken) (start stop : PlacedToken) : Prop :=
  ∃ front between rest attributes e, tokens = front ++ start :: (between ++ stop :: rest) ∧
    start.token = .startTag e.name attributes false ∧ start.span = e.span ∧
    ((front ++ start :: between).foldl (process voids) .start).ClosesAt voids stop e

theorem exists_step_of_closes (h : Closes voids tokens start stop) : start ∈ tokens ∧
    ∃ c e, (c, stop) ∈ steps voids .start tokens ∧ c.closed? voids stop = some e ∧
      e.span = start.span := by
  obtain ⟨front, between, rest, attributes, e, rfl, -, hspan, hcloses⟩ := h
  refine ⟨by simp, _, e, mem_steps_iff.2 ⟨front ++ start :: between, rest, by simp, rfl⟩,
    closesAt_iff.1 hcloses, hspan.symm⟩

/-- An element that is closed was opened before. -/
theorem exists_closes (hstep : (c, stop) ∈ steps voids .start tokens)
    (hclosed : c.closed? voids stop = some e) :
    ∃ start, start.span = e.span ∧ Closes voids tokens start stop := by
  obtain ⟨front, rest, rfl, rfl⟩ := mem_steps_iff.1 hstep
  have htags : ∀ tag ∈ (front.foldl (process voids) .start).tags, ∃ start ∈ front, ∃ attributes,
      start.token = .startTag tag.1 attributes false ∧ start.span = tag.2 :=
    forall_mem_tags_foldl (List.forall_mem_nil _) fun start hs name attributes htoken =>
      ⟨start, hs, attributes, htoken, rfl⟩
  obtain ⟨_, inside, outer, -, -, ho, -, -⟩ := exists_split_of_closed? hclosed
  obtain ⟨start, hs, attributes, htoken, hspan⟩ := htags e.tag (by simp [tags, ho])
  obtain ⟨first, between, rfl⟩ := List.append_of_mem hs
  exact ⟨start, hspan, first, between, rest, attributes, e, by simp, htoken, hspan,
    closesAt_iff.2 hclosed⟩

/-! ## Counting -/

theorem cutsOff_diagnostic_iff {problem : Problem} : problem.diagnostic.cutsOff s = true ↔
    ∃ tag name span, problem = .closedAround tag name span s := by
  cases problem <;> simp [Diagnostic.cutsOff, Diagnostic.marks, Problem.diagnostic]

theorem marks_unclosed_iff {problem : Problem} :
    problem.diagnostic.marks .unclosedElement true s = true ↔
      ∃ name, problem = .unclosed name s := by
  cases problem <;> simp [Diagnostic.marks, Problem.diagnostic]

/-- Whether a token closes the element whose start tag is at the place. -/
def closesFrom (voids : VoidTags) (s : Span) (step : Construction × PlacedToken) : Bool :=
  (step.1.closed? voids step.2).any (·.span == s)

/-- **One token keeps the account**: an element that was open or is opened is open afterwards, or it
is reported, or the token closes it. -/
theorem countP_process (voids : VoidTags) (s : Span) (c : Construction) (placed : PlacedToken) :
    (c.process voids placed).tags.countP (·.2 == s) +
        (c.found voids placed).countP (·.diagnostic.cutsOff s) +
        (if closesFrom voids s (c, placed) then 1 else 0) =
      c.tags.countP (·.2 == s) +
        if placed.token.opens voids && placed.span == s then 1 else 0 := by
  have hcloses : closesFrom voids s (c, placed) = (c.closed? voids placed).any (·.span == s) := rfl
  have hnone (h : ∀ tag name span opened, .closedAround tag name span opened ∉
      c.found voids placed) : (c.found voids placed).countP (·.diagnostic.cutsOff s) = 0 := by
    refine List.countP_eq_zero.2 fun problem hp hcuts => ?_
    obtain ⟨tag, name, span, rfl⟩ := cutsOff_diagnostic_iff.1 hcuts
    exact h _ _ _ _ hp
  cases acts voids c placed with
  | opens htoken hopens htags hfound =>
    have hcut := hnone fun tag name span opened hp => by
      rw [hfound] at hp
      obtain ⟨_, _, h⟩ := Token.mem_repeats hp
      cases h
    rw [htags, hcut, hopens, hcloses, closed?_of_ne_endTag (by simp [htoken]), List.countP_cons]
    simp
  | @closes tag inside outer e htoken hname hclosed ho htags hfound =>
    have hcut : (c.found voids placed).countP (·.diagnostic.cutsOff s) =
        (inside.map OpenElement.tag).countP (·.2 == s) := by
      rw [hfound, List.countP_map, List.countP_map]
      refine List.countP_congr fun o _ => ?_
      simp [Diagnostic.cutsOff, Diagnostic.marks, Problem.diagnostic, OpenElement.tag]
    have hopens : placed.token.opens voids = false := by rw [htoken]; rfl
    have htag : e.tag.2 = e.span := rfl
    rw [htags, hcut, hopens, hcloses, hclosed, tags, ho, List.map_append, List.map_cons,
      List.countP_append, List.countP_cons, htag]
    simp only [Option.any_some, Bool.false_and, Bool.false_eq_true, if_false]
    omega
  | stays hopens hclosed htags hfound =>
    rw [htags, hnone hfound, hopens, hcloses, hclosed]
    simp

/-- **A run keeps the account.** -/
theorem countP_foldl (voids : VoidTags) (s : Span) (c : Construction) (tokens : List PlacedToken) :
    (tokens.foldl (process voids) c).tags.countP (·.2 == s) +
        ((steps voids c tokens).flatMap fun step => step.1.found voids step.2).countP
          (·.diagnostic.cutsOff s) +
        (steps voids c tokens).countP (closesFrom voids s) =
      c.tags.countP (·.2 == s) +
        tokens.countP (fun placed => placed.token.opens voids && placed.span == s) := by
  induction tokens generalizing c with
  | nil => rfl
  | cons placed rest ih =>
    have hfirst := countP_process voids s c placed
    have hrest := ih (c.process voids placed)
    rw [List.foldl_cons, steps, List.flatMap_cons, List.countP_append, List.countP_cons,
      List.countP_cons]
    dsimp only
    omega

/-- The reports that are about tokens come from the tokens. -/
theorem countP_problemsOf {q : Problem → Bool}
    (hunclosed : ∀ name span, q (.unclosed name span) = false) (hroot : q .noRoot = false)
    (hfurther : ∀ span, q (.furtherRoot span) = false) :
    (problemsOf voids tokens).countP q =
      ((steps voids .start tokens).flatMap fun step => step.1.found voids step.2).countP q := by
  have hopen : ((tokens.foldl (process voids) .start).tags.map
      fun tag => Problem.unclosed tag.1 tag.2).countP q = 0 := by
    refine List.countP_eq_zero.2 fun problem hp => ?_
    obtain ⟨tag, -, rfl⟩ := List.mem_map.1 hp
    simp [hunclosed]
  have htop (spans : List Span) : (topProblems spans).countP q = 0 := by
    cases spans with
    | nil => simp [topProblems, hroot]
    | cons first further =>
      refine List.countP_eq_zero.2 fun problem hp => ?_
      obtain ⟨span, -, rfl⟩ := List.mem_map.1 hp
      simp [hfurther]
  rw [problemsOf, List.countP_append, List.countP_append, hopen, htop]
  rfl

/-- The elements that are left open are those with a report that says so. -/
theorem countP_unclosed (s : Span) : (problemsOf voids tokens).countP
      (·.diagnostic.marks .unclosedElement true s) =
    (tokens.foldl (process voids) .start).tags.countP (·.2 == s) := by
  have hfound : ((steps voids .start tokens).flatMap fun step => step.1.found voids step.2).countP
      (·.diagnostic.marks .unclosedElement true s) = 0 := by
    refine List.countP_eq_zero.2 fun problem hp hmarks => ?_
    obtain ⟨name, rfl⟩ := marks_unclosed_iff.1 hmarks
    obtain ⟨step, -, hp⟩ := List.mem_flatMap.1 hp
    simpa using forms_of_mem_found hp
  have htop (spans : List Span) : (topProblems spans).countP
      (·.diagnostic.marks .unclosedElement true s) = 0 := by
    refine List.countP_eq_zero.2 fun problem hp hmarks => ?_
    obtain ⟨name, rfl⟩ := marks_unclosed_iff.1 hmarks
    cases spans <;> simp [topProblems] at hp
  rw [problemsOf, List.countP_append, List.countP_append, hfound, htop, List.countP_map,
    Nat.zero_add, Nat.add_zero]
  refine List.countP_congr fun tag _ => ?_
  simp [Diagnostic.marks, Problem.diagnostic]

/-! ## Every tag -/

theorem countP_reports (q : Diagnostic → Bool) :
    (reports voids tokens).countP q = (problemsOf voids tokens).countP fun problem =>
      q problem.diagnostic := by
  rw [reports_eq, List.countP_map]
  rfl

/-- **Every start tag is accounted for**: as often as elements are opened at a place, one of them is
closed, cut off by an end tag around it, or left open. -/
theorem countP_startTags (voids : VoidTags) (tokens : List PlacedToken) (s : Span) :
    (reports voids tokens).countP (·.cutsOff s) +
        (reports voids tokens).countP (·.marks .unclosedElement true s) +
        (steps voids .start tokens).countP (closesFrom voids s) =
      tokens.countP fun placed => placed.token.opens voids && placed.span == s := by
  have hrun := countP_foldl voids s .start tokens
  rw [countP_reports, countP_reports, countP_unclosed,
    countP_problemsOf (fun _ _ => rfl) rfl fun _ => rfl]
  have hstart : start.tags.countP (·.2 == s) = 0 := rfl
  omega

theorem eq_of_span_eq (hspans : (tokens.map (·.span)).Nodup) (hstart : start ∈ tokens)
    (hstop : stop ∈ tokens) (h : start.span = stop.span) : start = stop :=
  List.inj_on_of_nodup_map hspans hstart hstop h

/-- An element that is opened once is closed once, or reported once. -/
theorem startTag_accounted (hspans : (tokens.map (·.span)).Nodup) (hstart : start ∈ tokens)
    (hopens : start.token.opens voids = true) :
    (∃! stop, Closes voids tokens start stop) ∧
        (reports voids tokens).countP (·.cutsOff start.span) = 0 ∧
        (reports voids tokens).countP (·.marks .unclosedElement true start.span) = 0 ∨
      (¬ ∃ stop, Closes voids tokens start stop) ∧
        (reports voids tokens).countP (·.cutsOff start.span) +
          (reports voids tokens).countP (·.marks .unclosedElement true start.span) = 1 := by
  have hone : (tokens.countP fun placed => placed.token.opens voids && placed.span == start.span) =
      1 := by
    rw [← List.count_eq_one_of_mem (List.Nodup.of_map _ hspans) hstart]
    refine List.countP_congr fun placed hp => ?_
    rw [Bool.and_eq_true, beq_iff_eq, beq_iff_eq]
    constructor
    · exact fun h => eq_of_span_eq hspans hp hstart h.2
    · rintro rfl
      exact ⟨hopens, rfl⟩
  have htotal := countP_startTags voids tokens start.span
  rw [hone] at htotal
  have hsteps {stop : PlacedToken} (h : Closes voids tokens start stop) :
      ∃ c, (c, stop) ∈ steps voids .start tokens ∧
        closesFrom voids start.span (c, stop) = true := by
    obtain ⟨-, c, e, hstep, hclosed, hspan⟩ := exists_step_of_closes h
    exact ⟨c, hstep, by simp [closesFrom, hclosed, hspan]⟩
  by_cases hzero : (steps voids .start tokens).countP (closesFrom voids start.span) = 0
  · refine .inr ⟨fun ⟨stop, h⟩ => ?_, by omega⟩
    obtain ⟨c, hstep, hcloses⟩ := hsteps h
    exact List.countP_eq_zero.1 hzero _ hstep hcloses
  · have hcut : (reports voids tokens).countP (·.cutsOff start.span) = 0 ∧
        (reports voids tokens).countP (·.marks .unclosedElement true start.span) = 0 := by omega
    have honly : (steps voids .start tokens).countP (closesFrom voids start.span) = 1 := by omega
    rw [List.countP_eq_length_filter, List.length_eq_one_iff] at honly
    obtain ⟨⟨c, stop⟩, honly⟩ := honly
    have hmem : (c, stop) ∈ (steps voids .start tokens).filter (closesFrom voids start.span) := by
      simp [honly]
    obtain ⟨hstep, hcloses⟩ := List.mem_filter.1 hmem
    obtain ⟨e, hclosed, hspan⟩ := (Option.any_eq_true ..).1 hcloses
    obtain ⟨start', hstart', h⟩ := exists_closes hstep hclosed
    obtain rfl : start' = start := eq_of_span_eq hspans (exists_step_of_closes h).1 hstart
      (hstart'.trans (beq_iff_eq.1 hspan))
    refine .inl ⟨⟨stop, h, fun other hother => ?_⟩, hcut⟩
    obtain ⟨c', hstep', hcloses'⟩ := hsteps hother
    have hmem' := List.mem_filter.2 ⟨hstep', hcloses'⟩
    rw [honly, List.mem_singleton] at hmem'
    exact congrArg Prod.snd hmem'

/-- Where only one element of a list contributes, its contribution is all. -/
theorem countP_flatMap_of_mem {α β γ : Type} {l : List α} {f : α → γ} {g : α → List β}
    {q : β → Bool} {a : α} (hl : (l.map f).Nodup) (ha : a ∈ l)
    (h : ∀ b ∈ l, ∀ y ∈ g b, q y = true → f b = f a) :
    (l.flatMap g).countP q = (g a).countP q := by
  induction l with
  | nil => cases ha
  | cons b l ih =>
    rw [List.map_cons, List.nodup_cons] at hl
    rw [List.forall_mem_cons] at h
    rw [List.flatMap_cons, List.countP_append]
    rcases List.mem_cons.1 ha with rfl | ha
    · have hrest : (l.flatMap g).countP q = 0 := List.countP_eq_zero.2 fun y hy hq => by
        obtain ⟨b, hb, hy⟩ := List.mem_flatMap.1 hy
        exact hl.1 (List.mem_map.2 ⟨b, hb, h.2 b hb y hy hq⟩)
      rw [hrest, Nat.add_zero]
    · have hfirst : (g b).countP q = 0 := List.countP_eq_zero.2 fun y hy hq =>
        hl.1 (List.mem_map.2 ⟨a, ha, (h.1 y hy hq).symm⟩)
      rw [hfirst, Nat.zero_add, ih hl.2 ha h.2]

/-- Reports on end tags at the place of one come from that one. -/
theorem countP_endTag {q : Diagnostic → Bool} (hspans : (tokens.map (·.span)).Nodup)
    (hstep : (c, stop) ∈ steps voids .start tokens)
    (hq : ∀ d, q d = true → d.marks .mismatchedEndTag true stop.span = true ∨
      d.marks .strayEndTag true stop.span = true) :
    (reports voids tokens).countP q =
      (c.found voids stop).countP fun problem => q problem.diagnostic := by
  have hother {d : Diagnostic} (h : d.code ∉ [some .mismatchedEndTag, some .strayEndTag]) :
      q d = false := by
    rw [← Bool.not_eq_true]
    intro htrue
    rcases hq d htrue with hmarks | hmarks <;>
      simp_all [Diagnostic.marks]
  rw [countP_reports, countP_problemsOf (fun _ _ => hother (by simp [Problem.diagnostic]))
    (hother (by simp [Problem.diagnostic])) fun _ => hother (by simp [Problem.diagnostic])]
  refine countP_flatMap_of_mem (nodup_steps hspans) hstep fun step _ problem hp htrue => ?_
  have hmarks := hq _ htrue
  obtain ⟨_, _, rfl⟩ | ⟨_, _, _, rfl⟩ | ⟨_, _, _, rfl⟩ | ⟨_, rfl⟩ | ⟨rfl, -⟩ :=
    forms_of_mem_found hp <;> simp [Diagnostic.marks, Problem.diagnostic] at hmarks <;> exact hmarks

/-- An end tag closes one element, or it is reported once. -/
theorem endTag_accounted (hspans : (tokens.map (·.span)).Nodup)
    (hstep : (c, stop) ∈ steps voids .start tokens) {tag : String}
    (htoken : stop.token = .endTag tag) (hv : voids.has tag = false) :
    (∃! start, Closes voids tokens start stop) ∧
        (reports voids tokens).countP (·.rejects stop.span) = 0 ∧
        (reports voids tokens).countP (·.marks .strayEndTag true stop.span) = 0 ∨
      (¬ ∃ start, Closes voids tokens start stop) ∧
        (c.opened ≠ [] ∧ (reports voids tokens).countP (·.rejects stop.span) = 1 ∧
            (reports voids tokens).countP (·.marks .mismatchedEndTag true stop.span) = 1 ∧
            (reports voids tokens).countP (·.marks .strayEndTag true stop.span) = 0 ∨
          c.opened = [] ∧
            (reports voids tokens).countP (·.marks .mismatchedEndTag true stop.span) = 0 ∧
            (reports voids tokens).countP (·.marks .strayEndTag true stop.span) = 1) := by
  have hrejects := countP_endTag (q := (·.rejects stop.span)) hspans hstep fun d h =>
    .inl (Bool.and_eq_true_iff.1 h).1
  have hmismatched := countP_endTag (q := (·.marks .mismatchedEndTag true stop.span)) hspans hstep
    fun _ => .inl
  have hstray := countP_endTag (q := (·.marks .strayEndTag true stop.span)) hspans hstep
    fun _ => .inr
  have hsame {c' : Construction} (h : (c', stop) ∈ steps voids .start tokens) : c' = c :=
    congrArg Prod.fst (List.inj_on_of_nodup_map (nodup_steps hspans) h hstep rfl)
  rw [hrejects, hmismatched, hstray]
  cases hclosed : c.closed? voids stop with
  | some e =>
    obtain ⟨tag, inside, outer, htoken, hv, ho, hinside, hname⟩ := exists_split_of_closed? hclosed
    obtain ⟨start, hspan, h⟩ := exists_closes hstep hclosed
    refine .inl ⟨⟨start, h, fun other hother => ?_⟩, ?_, ?_⟩
    · obtain ⟨hmem, c', e', hstep', hclosed', hspan'⟩ := exists_step_of_closes hother
      rw [hsame hstep', hclosed] at hclosed'
      cases hclosed'
      exact eq_of_span_eq hspans hmem (exists_step_of_closes h).1 (hspan'.symm.trans hspan.symm)
    · rw [found_of_split htoken hv ho hinside hname, List.countP_map]
      exact List.countP_eq_zero.2 (by simp [Diagnostic.rejects, Problem.diagnostic])
    · rw [found_of_split htoken hv ho hinside hname, List.countP_map]
      exact List.countP_eq_zero.2 (by simp [Diagnostic.marks, Problem.diagnostic])
  | none =>
    refine .inr ⟨?_, ?_⟩
    · rintro ⟨start, h⟩
      obtain ⟨-, c', e', hstep', hclosed', -⟩ := exists_step_of_closes h
      rw [hsame hstep', hclosed] at hclosed'
      cases hclosed'
    · rw [found_of_unmatched htoken hv (unmatched_of_closed? htoken hv hclosed)]
      cases ho : c.opened with
      | nil =>
        refine .inr ⟨rfl, ?_, ?_⟩ <;> simp [Diagnostic.marks, Problem.diagnostic]
      | cons e outer =>
        refine .inl ⟨by simp, ?_, ?_, ?_⟩ <;>
          simp [Diagnostic.rejects, Diagnostic.marks, Problem.diagnostic]

/-- **The reports account for every tag.** An element that is opened is closed by one later end tag
of its name, which comes when the element is the innermost one or all inside it is reported, or it
is itself reported once: as one that an end tag comes around, or as one that is never closed. An end
tag closes one element of its name, or it is reported once: as one that does not fit the open
elements, or as one without any. Top-level elements are the start tags where no element is open; all
but the first are reported, or that there is none. Visible texts where no element is open are
reported, each once. -/
theorem reports_account (voids : VoidTags) {tokens : List PlacedToken}
    (hspans : (tokens.map (·.span)).Nodup) :
    let all := reports voids tokens
    let roots := (tokens.foldl (process voids) .start).finish.roots
    (∀ start ∈ tokens, start.token.opens voids = true →
      (∃! stop, Closes voids tokens start stop) ∧ all.countP (·.cutsOff start.span) = 0 ∧
          all.countP (·.marks .unclosedElement true start.span) = 0 ∨
        (¬ ∃ stop, Closes voids tokens start stop) ∧ all.countP (·.cutsOff start.span) +
          all.countP (·.marks .unclosedElement true start.span) = 1) ∧
    (∀ c stop tag, (c, stop) ∈ steps voids .start tokens → stop.token = .endTag tag →
      voids.has tag = false →
      (∃! start, Closes voids tokens start stop) ∧ all.countP (·.rejects stop.span) = 0 ∧
          all.countP (·.marks .strayEndTag true stop.span) = 0 ∨
        (¬ ∃ start, Closes voids tokens start stop) ∧
          (c.opened ≠ [] ∧ all.countP (·.rejects stop.span) = 1 ∧
              all.countP (·.marks .mismatchedEndTag true stop.span) = 1 ∧
              all.countP (·.marks .strayEndTag true stop.span) = 0 ∨
            c.opened = [] ∧ all.countP (·.marks .mismatchedEndTag true stop.span) = 0 ∧
              all.countP (·.marks .strayEndTag true stop.span) = 1)) ∧
    roots.map Prod.snd =
      ((outside voids .start tokens).filter (·.token.isStartTag)).map (·.span) ∧
    all.countP (·.code = some .multipleRoots) = roots.length - 1 ∧
    ((∃ d ∈ all, d.code = some .missingRoot) ↔ roots = []) ∧
    all.filter (·.code = some .textOutsideRoot) =
      ((outside voids .start tokens).filter (·.token.isVisible)).map fun placed =>
        (Problem.textOutside placed.span).diagnostic := by
  intro all roots
  have hroots : roots.map Prod.snd = (tokens.foldl (process voids) .start).tops := roots_finish _
  refine ⟨fun start hstart hopens => startTag_accounted hspans hstart hopens,
    fun c stop tag hstep htoken hv => endTag_accounted hspans hstep htoken hv, ?_, ?_, ?_,
    filter_textOutside voids tokens⟩
  · rw [hroots, tops_foldl]
    rfl
  · rw [List.countP_eq_length_filter, filter_furtherRoot, List.length_map, List.length_tail,
      ← hroots, List.length_map]
  · rw [exists_noRoot_iff, ← hroots, List.map_eq_nil_iff]

/-- An end tag comes around an element; one does not fit where an element is open, and one where none
is. -/
theorem reports_account_list :
    let a : PlacedToken := ⟨.startTag "a" [] false, .between 0 3⟩
    let b : PlacedToken := ⟨.startTag "b" [] false, .between 3 6⟩
    let c : PlacedToken := ⟨.endTag "c", .between 10 14⟩
    let d : PlacedToken := ⟨.startTag "d" [] false, .between 15 18⟩
    let tokens := [a, b, ⟨.endTag "A", .between 6 10⟩, c, ⟨.text "x", .between 14 15⟩, d]
    let all := reports ⟨[]⟩ tokens
    (tokens.map (·.span)).Nodup ∧ (∃! stop, Closes ⟨[]⟩ tokens a stop) ∧
      (¬ ∃ stop, Closes ⟨[]⟩ tokens b stop) ∧ (¬ ∃ stop, Closes ⟨[]⟩ tokens d stop) ∧
      (¬ ∃ start, Closes ⟨[]⟩ tokens start c) ∧
      all.countP (·.code = some .multipleRoots) = 1 := by
  intro a b c d tokens all
  have hspans : (tokens.map (·.span)).Nodup := by decide
  obtain ⟨hstart, hend, -, htops, -, -⟩ := reports_account ⟨[]⟩ hspans
  have hstep : (_, c) ∈ steps ⟨[]⟩ .start tokens :=
    mem_steps_iff.2 ⟨[a, b, ⟨.endTag "A", .between 6 10⟩], _, rfl, rfl⟩
  refine ⟨hspans, ?_, ?_, ?_, ?_, htops.trans (by decide +kernel)⟩
  · exact ((hstart a (by decide) rfl).resolve_right fun h => absurd h.2 (by decide +kernel)).1
  · exact ((hstart b (by decide) rfl).resolve_left fun h => absurd h.2.1 (by decide +kernel)).1
  · exact ((hstart d (by decide) rfl).resolve_left fun h => absurd h.2.2 (by decide +kernel)).1
  · exact ((hend _ c "c" hstep rfl rfl).resolve_left fun h =>
      absurd h.2.2 (by decide +kernel)).1

end Construction

end ComponentMarkup.Markup
