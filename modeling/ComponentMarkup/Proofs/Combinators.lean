/-
  Parser combinators.

  * `Parser`: reads a value from a position on, or fails (`Reply`). After a failure that backtracks,
    other parsers are tried in its place; a cut is final. A failure collects the contexts that it
    passes on its way out, and `Failure.diagnostic` reports the innermost one, or an unexpected
    character where there is none.
  * `Combinators`: the parsers of a library, and its ways to put parsers together.
    `Combinators.Lawful` is what grammars rely on: `alt`, `optional` and `many` go back to where
    they began after a failure that backtracks, and a cut leaves the text where it stopped.
  * `Combinators.standard`: combinators that are lawful (`lawful_standard`).
  * `Reply.Agrees`: a parser replies what a scan from the same position gives.
-/
import ComponentMarkup.Markup.Token.Attribute
import ComponentMarkup.Proofs.ReadingOn

namespace ComponentMarkup.Markup

/-! ## Failures -/

/-- What a failure knows about a construct around it. -/
structure Context where
  code : ErrorCode
  message : String
  help : Option String
  /-- The offset where the construct starts. -/
  start : Nat
deriving DecidableEq, Repr

/-- Why a parser failed. -/
inductive Failure where
  /-- Another parser may be tried. -/
  | backtrack (contexts : List Context)
  /-- No other parser is tried. -/
  | cut (contexts : List Context)
  /-- More text is needed. -/
  | incomplete
deriving DecidableEq, Repr

namespace Failure

/-- The contexts of a failure, innermost first. -/
def contexts : Failure → List Context
  | .backtrack contexts | .cut contexts => contexts
  | .incomplete => []

/-- The failure as seen from outside a construct. -/
def within (context : Context) : Failure → Failure
  | .backtrack contexts => .backtrack (contexts ++ [context])
  | .cut contexts => .cut (contexts ++ [context])
  | .incomplete => .incomplete

/-- The failure of a parser that is committed to its construct. -/
def commit : Failure → Failure
  | .backtrack contexts => .cut contexts
  | failure => failure

/-- The report on a character that nothing is known about. -/
def unexpectedCharacter (offset : Nat) : Diagnostic where
  severity := .error
  code := some .malformedTag
  message := "unexpected character"
  labels := [⟨.between offset (offset + 1), ErrorCode.malformedTag.description, true⟩]
  help := none

/-- The report on a failure that stopped at an offset. -/
def diagnostic (failure : Failure) (offset : Nat) : Diagnostic :=
  match failure.contexts with
  | context :: _ =>
    { severity := .error
      code := some context.code
      message := context.message
      labels := [⟨.between context.start (max offset (context.start + 1)),
        context.code.description, true⟩]
      help := context.help }
  | [] => unexpectedCharacter offset

end Failure

/-! ## Parsers -/

/-- What a parser gives: a value and the position after it, or a failure and the position where
reading stopped. -/
inductive Reply (α : Type) where
  | done (value : α) (next : Cursor)
  | failed (failure : Failure) (stop : Cursor)

/-- Reads from a position on. -/
abbrev Parser (α : Type) := Cursor → Reply α

namespace Reply

variable {α β : Type}

/-- Changes the value. -/
def map (f : α → β) : Reply α → Reply β
  | .done a next => .done (f a) next
  | .failed failure stop => .failed failure stop

/-- Goes on after the value. -/
def bind (reply : Reply α) (f : α → Parser β) : Reply β :=
  match reply with
  | .done a next => f a next
  | .failed failure stop => .failed failure stop

/-- Changes the failure. -/
def mapFailure (f : Failure → Failure) : Reply α → Reply α
  | .done a next => .done a next
  | .failed failure stop => .failed (f failure) stop

/-- What was found, or a failure at `stop` that knows nothing. -/
def ofOption (stop : Cursor) : Option (α × Cursor) → Reply α
  | some (a, next) => .done a next
  | none => .failed (.backtrack []) stop

/-- The longest run of characters that satisfy `p`, of which there must be `least`. -/
def run (least : Nat) (p : Char → Bool) (cur : Cursor) : Reply (List Char) :=
  ofOption cur (if least ≤ (cur.takeWhile p).1.length then some (cur.takeWhile p) else none)

/-- A failure after which other parsers are tried. -/
def Backtracks (reply : Reply α) : Prop :=
  ∃ contexts stop, reply = .failed (.backtrack contexts) stop

section
variable {f : α → β} {k : α → Parser β} {g : Failure → Failure} {a : α} {next stop : Cursor}
  {failure : Failure}

@[simp] theorem map_done : (done a next).map f = .done (f a) next := rfl

@[simp] theorem map_failed : (failed failure stop : Reply α).map f = .failed failure stop := rfl

@[simp] theorem bind_done : (done a next).bind k = k a next := rfl

@[simp] theorem bind_failed : (failed failure stop : Reply α).bind k = .failed failure stop := rfl

@[simp] theorem mapFailure_done : (done a next).mapFailure g = .done a next := rfl

@[simp] theorem mapFailure_failed :
    (failed failure stop : Reply α).mapFailure g = .failed (g failure) stop := rfl

@[simp] theorem ofOption_some : ofOption stop (some (a, next)) = .done a next := rfl

@[simp] theorem ofOption_none :
    (ofOption stop none : Reply α) = .failed (.backtrack []) stop := rfl

theorem map_map {γ : Type} (f : α → β) (g : β → γ) (reply : Reply α) :
    (reply.map f).map g = reply.map fun a => g (f a) := by
  cases reply <;> rfl

theorem mapFailure_map (f : α → β) (g : Failure → Failure) (reply : Reply α) :
    (reply.map f).mapFailure g = (reply.mapFailure g).map f := by
  cases reply <;> rfl

theorem backtracks_failed (contexts : List Context) (stop : Cursor) :
    (failed (.backtrack contexts) stop : Reply α).Backtracks := ⟨contexts, stop, rfl⟩

end

end Reply

/-! ## Combinators -/

/-- The parsers of a library, and its ways to put parsers together. -/
structure Combinators where
  /-- The given characters. -/
  literal : List Char → Parser (List Char)
  /-- One character of a class. -/
  oneOf : (Char → Bool) → Parser Char
  /-- At least so many characters of a class, and all of them. -/
  takeWhile : Nat → (Char → Bool) → Parser (List Char)
  /-- At least so many characters that are not of a class, and all of them. -/
  takeTill : Nat → (Char → Bool) → Parser (List Char)
  /-- At least so many characters, up to where the given ones come for the first time. -/
  takeUntil : Nat → List Char → Parser (List Char)
  /-- All that is left. -/
  rest : Parser (List Char)
  /-- Any spaces. -/
  spaces : Parser (List Char)
  /-- At least one space. -/
  someSpaces : Parser (List Char)
  /-- Both values, one after the other. -/
  pair : {α β : Type} → Parser α → Parser β → Parser (α × β)
  /-- The second of two values. -/
  preceded : {α β : Type} → Parser α → Parser β → Parser β
  /-- The first of two values. -/
  terminated : {α β : Type} → Parser α → Parser β → Parser α
  /-- The value under a function. -/
  map : {α β : Type} → (α → β) → Parser α → Parser β
  /-- A value that passes a test. -/
  verify : {α : Type} → (α → Bool) → Parser α → Parser α
  /-- The value with its place. -/
  withSpan : {α : Type} → Parser α → Parser (α × Span)
  /-- Puts a context on a failure. -/
  within : {α : Type} → Context → Parser α → Parser α
  /-- Makes a failure final. -/
  commit : {α : Type} → Parser α → Parser α
  /-- The value, if there is one. -/
  optional : {α : Type} → Parser α → Parser (Option α)
  /-- The value of the first parser that has one. -/
  alt : {α : Type} → List (Parser α) → Parser α
  /-- Values as long as there are any. -/
  many : {α : Type} → Parser α → Parser (List α)
  /-- The value, without reading on. -/
  peek : {α : Type} → Parser α → Parser α
  /-- Nothing, where a parser has no value. -/
  lacking : {α : Type} → Parser α → Parser Unit
  /-- The next so many bytes. There is no result where they end inside a character. -/
  nextSlice : Nat → Cursor → Option (List Char × Cursor)

/-- What is relied on of combinators. -/
structure Combinators.Lawful (c : Combinators) : Prop where
  literal : ∀ pat cur, c.literal pat cur = .ofOption cur ((cur.skip? pat).map (pat, ·))
  oneOf : ∀ p cur, c.oneOf p cur = match cur.rest with
    | ch :: rest => if p ch then .done ch (cur.past [ch] rest) else .failed (.backtrack []) cur
    | [] => .failed (.backtrack []) cur
  takeWhile : ∀ least p cur, c.takeWhile least p cur = .run least p cur
  takeTill : ∀ least p cur, c.takeTill least p cur = .run least (!p ·) cur
  takeUntil : ∀ least pat cur, c.takeUntil least pat cur = match Text.cut? pat cur.rest with
    | some (before, after) =>
      if least ≤ before.length then .done before (cur.past before (pat ++ after))
      else .failed (.backtrack []) cur
    | none => .failed (.backtrack []) cur
  rest : ∀ cur, c.rest cur = .done cur.rest cur.finish
  spaces : ∀ cur, c.spaces cur = .run 0 isSpace cur
  someSpaces : ∀ cur, c.someSpaces cur = .run 1 isSpace cur
  pair : ∀ {α β} (p : Parser α) (q : Parser β) cur,
    c.pair p q cur = (p cur).bind fun a next => (q next).map (a, ·)
  preceded : ∀ {α β} (p : Parser α) (q : Parser β) cur,
    c.preceded p q cur = (p cur).bind fun _ next => q next
  terminated : ∀ {α β} (p : Parser α) (q : Parser β) cur,
    c.terminated p q cur = (p cur).bind fun a next => (q next).map fun _ => a
  map : ∀ {α β} (f : α → β) (p : Parser α) cur, c.map f p cur = (p cur).map f
  verify : ∀ {α} (keep : α → Bool) (p : Parser α) cur, c.verify keep p cur =
    (p cur).bind fun a next => if keep a then .done a next else .failed (.backtrack []) cur
  withSpan : ∀ {α} (p : Parser α) cur,
    c.withSpan p cur = (p cur).bind fun a next => .done (a, cur.spanTo next) next
  within : ∀ {α} context (p : Parser α) cur,
    c.within context p cur = (p cur).mapFailure (Failure.within context)
  commit : ∀ {α} (p : Parser α) cur, c.commit p cur = (p cur).mapFailure Failure.commit
  /-- An optional value that is not there is nothing read. -/
  optional_backtrack : ∀ {α} (p : Parser α) cur,
    (p cur).Backtracks → c.optional p cur = .done none cur
  optional_else : ∀ {α} (p : Parser α) cur,
    ¬ (p cur).Backtracks → c.optional p cur = (p cur).map some
  /-- All alternatives begin at the same position, and the first that does not backtrack counts. -/
  alt_first : ∀ {α} (before : List (Parser α)) (p : Parser α) (after : List (Parser α)) cur,
    (∀ q ∈ before, (q cur).Backtracks) → ¬ (p cur).Backtracks →
      c.alt (before ++ p :: after) cur = p cur
  alt_none : ∀ {α} (ps : List (Parser α)) cur,
    (∀ p ∈ ps, (p cur).Backtracks) → (c.alt ps cur).Backtracks
  /-- A last value that is not there is nothing read. -/
  many_backtrack : ∀ {α} (p : Parser α) cur, (p cur).Backtracks → c.many p cur = .done [] cur
  many_cut : ∀ {α} (p : Parser α) cur contexts stop,
    p cur = .failed (.cut contexts) stop → c.many p cur = .failed (.cut contexts) stop
  /-- After a value that takes text, the next one is read. -/
  many_done : ∀ {α} (p : Parser α) cur a next, p cur = .done a next →
    next.rest.length < cur.rest.length → c.many p cur = (c.many p next).map (a :: ·)
  peek : ∀ {α} (p : Parser α) cur, c.peek p cur = match p cur with
    | .done a _ => .done a cur
    | .failed failure _ => .failed failure cur
  lacking_backtrack : ∀ {α} (p : Parser α) cur, (p cur).Backtracks → c.lacking p cur = .done () cur
  lacking_done : ∀ {α} (p : Parser α) cur a next,
    p cur = .done a next → c.lacking p cur = .failed (.backtrack []) cur
  /-- A slice that ends between characters can be taken. -/
  nextSlice : ∀ s cur next, Cursor.Reads cur s next →
    c.nextSlice (utf8Length s) cur = some (s, next)

/-! ## Lawful combinators -/

namespace Combinators

variable {α : Type}

/-- The reply of the first parser that does not backtrack. -/
def firstOf : List (Parser α) → Parser α
  | [], cur => .failed (.backtrack []) cur
  | p :: ps, cur =>
    match p cur with
    | .failed (.backtrack _) _ => firstOf ps cur
    | reply => reply

/-- The values of a parser, one after another. A value must take text. -/
def valuesOf (p : Parser α) (cur : Cursor) : Reply (List α) :=
  match p cur with
  | .failed (.backtrack _) _ => .done [] cur
  | .failed failure stop => .failed failure stop
  | .done a next =>
    if next.rest.length < cur.rest.length then (valuesOf p next).map (a :: ·)
    else .failed (.cut []) next
termination_by cur.rest.length

/-- The characters that take the given number of bytes, and the others. -/
def sliceOf? : Nat → List Char → Option (List Char × List Char)
  | 0, cs => some ([], cs)
  | _ + 1, [] => none
  | n + 1, c :: cs =>
    if c.utf8Size ≤ n + 1 then
      (sliceOf? (n + 1 - c.utf8Size) cs).map fun parts => (c :: parts.1, parts.2)
    else none

theorem firstOf_append {before : List (Parser α)} {p : Parser α} {after : List (Parser α)}
    {cur : Cursor} (hbefore : ∀ q ∈ before, (q cur).Backtracks) (hp : ¬ (p cur).Backtracks) :
    firstOf (before ++ p :: after) cur = p cur := by
  induction before with
  | nil =>
    rw [List.nil_append, firstOf]
    split
    next contexts stop he => exact absurd ⟨contexts, stop, he⟩ hp
    next => rfl
  | cons q before ih =>
    rw [List.forall_mem_cons] at hbefore
    obtain ⟨⟨contexts, stop, hq⟩, hbefore⟩ := hbefore
    rw [List.cons_append, firstOf, hq]
    exact ih hbefore

theorem backtracks_firstOf {ps : List (Parser α)} {cur : Cursor}
    (h : ∀ p ∈ ps, (p cur).Backtracks) : (firstOf ps cur).Backtracks := by
  induction ps with
  | nil => exact Reply.backtracks_failed [] cur
  | cons p ps ih =>
    rw [List.forall_mem_cons] at h
    obtain ⟨⟨contexts, stop, hp⟩, h⟩ := h
    rw [firstOf, hp]
    exact ih h

theorem sliceOf?_append (s rest : List Char) :
    sliceOf? (utf8Length s) (s ++ rest) = some (s, rest) := by
  induction s with
  | nil => rw [utf8Length, List.nil_append, sliceOf?]
  | cons c s ih =>
    have hpos := c.utf8Size_pos
    obtain ⟨n, hn⟩ : ∃ n, utf8Length (c :: s) = n + 1 := ⟨utf8Length (c :: s) - 1, by
      rw [utf8Length]; omega⟩
    have hrest : n + 1 - c.utf8Size = utf8Length s := by
      rw [← hn, utf8Length]; omega
    have hle : c.utf8Size ≤ n + 1 := by
      rw [← hn, utf8Length]; omega
    rw [hn, List.cons_append, sliceOf?, if_pos hle, hrest, ih]
    rfl

/-- Combinators that do what is relied on, and nothing else. -/
def standard : Combinators where
  literal pat cur := .ofOption cur ((cur.skip? pat).map (pat, ·))
  oneOf p cur :=
    match cur.rest with
    | ch :: rest => if p ch then .done ch (cur.past [ch] rest) else .failed (.backtrack []) cur
    | [] => .failed (.backtrack []) cur
  takeWhile := .run
  takeTill least p := .run least (!p ·)
  takeUntil least pat cur :=
    match Text.cut? pat cur.rest with
    | some (before, after) =>
      if least ≤ before.length then .done before (cur.past before (pat ++ after))
      else .failed (.backtrack []) cur
    | none => .failed (.backtrack []) cur
  rest cur := .done cur.rest cur.finish
  spaces := .run 0 isSpace
  someSpaces := .run 1 isSpace
  pair p q cur := (p cur).bind fun a next => (q next).map (a, ·)
  preceded p q cur := (p cur).bind fun _ next => q next
  terminated p q cur := (p cur).bind fun a next => (q next).map fun _ => a
  map f p cur := (p cur).map f
  verify keep p cur :=
    (p cur).bind fun a next => if keep a then .done a next else .failed (.backtrack []) cur
  withSpan p cur := (p cur).bind fun a next => .done (a, cur.spanTo next) next
  within context p cur := (p cur).mapFailure (Failure.within context)
  commit p cur := (p cur).mapFailure Failure.commit
  optional p cur :=
    match p cur with
    | .failed (.backtrack _) _ => .done none cur
    | reply => reply.map some
  alt := firstOf
  many := valuesOf
  peek p cur :=
    match p cur with
    | .done a _ => .done a cur
    | .failed failure _ => .failed failure cur
  lacking p cur :=
    match p cur with
    | .done _ _ => .failed (.backtrack []) cur
    | .failed (.backtrack _) _ => .done () cur
    | .failed failure _ => .failed failure cur
  nextSlice n cur := (sliceOf? n cur.rest).map fun parts => (parts.1, ⟨cur.offset + n, parts.2⟩)

theorem lawful_standard : standard.Lawful where
  literal _ _ := rfl
  oneOf _ _ := rfl
  takeWhile _ _ _ := rfl
  takeTill _ _ _ := rfl
  takeUntil _ _ _ := rfl
  rest _ := rfl
  spaces _ := rfl
  someSpaces _ := rfl
  pair _ _ _ := rfl
  preceded _ _ _ := rfl
  terminated _ _ _ := rfl
  map _ _ _ := rfl
  verify _ _ _ := rfl
  withSpan _ _ := rfl
  within _ _ _ := rfl
  commit _ _ := rfl
  optional_backtrack p cur := by
    rintro ⟨contexts, stop, h⟩
    simp only [standard, h]
  optional_else p cur h := by
    simp only [standard]
    split
    next contexts stop he => exact absurd ⟨contexts, stop, he⟩ h
    next => rfl
  alt_first _ _ _ _ hbefore hp := firstOf_append hbefore hp
  alt_none _ _ h := backtracks_firstOf h
  many_backtrack p cur := by
    rintro ⟨contexts, stop, h⟩
    simp only [standard]
    rw [valuesOf, h]
  many_cut p cur contexts stop h := by
    simp only [standard]
    rw [valuesOf, h]
  many_done p cur a next h hlt := by
    simp only [standard]
    rw [valuesOf, h]
    simp only [if_pos hlt]
  peek _ _ := rfl
  lacking_backtrack p cur := by
    rintro ⟨contexts, stop, h⟩
    simp only [standard, h]
  lacking_done p cur a next h := by
    simp only [standard, h]
  nextSlice s cur next h := by
    obtain ⟨hr, ho⟩ := h
    simp only [standard]
    rw [hr, sliceOf?_append, Option.map_some, ← ho]

end Combinators

/-! ## Parsers and scans -/

/-- A parser replies what a scan from the same position gives: the value, nothing, or a fault, of
which the innermost context and the position of the failure tell. -/
inductive Reply.Agrees {α ε : Type} (tells : ε → Context → Cursor → Prop) :
    Reply α → Except ε (Option (α × Cursor)) → Prop
  | done {a next} : Agrees tells (.done a next) (.ok (some (a, next)))
  | nothing {contexts stop} : Agrees tells (.failed (.backtrack contexts) stop) (.ok none)
  | fault {e context more stop} : tells e context stop →
      Agrees tells (.failed (.cut (context :: more)) stop) (.error e)

namespace Reply

variable {α ε : Type} {tells : ε → Context → Cursor → Prop} {reply : Reply α} {p : Char → Bool}
  {scanned : Except ε (Option (α × Cursor))} {cur : Cursor}

theorem run_zero : run 0 p cur = .done (cur.takeWhile p).1 (cur.takeWhile p).2 := by
  rw [run, if_pos (Nat.zero_le _)]
  rfl

theorem run_one : run 1 p cur = match cur.takeWhile p with
    | ([], _) => .failed (.backtrack []) cur
    | (s, next) => .done s next := by
  rw [run]
  generalize cur.takeWhile p = taken
  obtain ⟨s, next⟩ := taken
  cases s with
  | nil => rfl
  | cons => rw [if_pos (by simp)]; rfl

theorem agrees_some_iff {a : α} {next : Cursor} :
    reply.Agrees tells (.ok (some (a, next))) ↔ reply = .done a next := by
  constructor
  · rintro ⟨⟩
    rfl
  · rintro rfl
    exact .done

theorem agrees_none_iff : reply.Agrees tells (.ok none) ↔ reply.Backtracks := by
  constructor
  · rintro ⟨⟩
    exact backtracks_failed ..
  · rintro ⟨contexts, stop, rfl⟩
    exact .nothing

theorem agrees_error_iff {e : ε} : reply.Agrees tells (.error e) ↔
    ∃ context more stop, reply = .failed (.cut (context :: more)) stop ∧ tells e context stop := by
  constructor
  · rintro (_ | _ | h)
    exact ⟨_, _, _, rfl, h⟩
  · rintro ⟨context, more, stop, rfl, h⟩
    exact .fault h

theorem Agrees.not_backtracks (h : reply.Agrees tells scanned) (hne : scanned ≠ .ok none) :
    ¬ reply.Backtracks := by
  rintro ⟨contexts, stop, rfl⟩
  cases h
  exact hne rfl

/-- A scan that must have a value does not give nothing. -/
theorem map_some_ne (result : Except ε (α × Cursor)) : result.map some ≠ .ok none := by
  cases result <;> simp [Except.map]

theorem not_backtracks_cut (contexts : List Context) (stop : Cursor) :
    ¬ (failed (.cut contexts) stop : Reply α).Backtracks := by
  rintro ⟨_, _, h⟩
  cases h

theorem not_backtracks_done (a : α) (next : Cursor) : ¬ (done a next).Backtracks := by
  rintro ⟨_, _, h⟩
  cases h

/-- A parser that is committed to its construct does not backtrack. -/
theorem not_backtracks_commit : ¬ (reply.mapFailure Failure.commit).Backtracks := by
  rintro ⟨contexts, stop, h⟩
  cases reply with
  | done => cases h
  | failed failure => cases failure <;> cases h

end Reply

namespace Combinators

variable {α β ε : Type} {tells : ε → Context → Cursor → Prop} {c : Combinators}
  {p : Parser α} {q : Parser β} {cur inner : Cursor} {pat : List Char}
  {scanned : Except ε (Option (α × Cursor))}

namespace Lawful

variable (laws : c.Lawful)
include laws

theorem literal_some (h : cur.skip? pat = some inner) : c.literal pat cur = .done pat inner := by
  rw [laws.literal, h]
  rfl

theorem literal_none (h : cur.skip? pat = none) :
    c.literal pat cur = .failed (.backtrack []) cur := by
  rw [laws.literal, h]
  rfl

theorem preceded_some (h : cur.skip? pat = some inner) :
    c.preceded (c.literal pat) q cur = q inner := by
  rw [laws.preceded, laws.literal_some h, Reply.bind_done]

theorem preceded_none (h : cur.skip? pat = none) :
    c.preceded (c.literal pat) q cur = .failed (.backtrack []) cur := by
  rw [laws.preceded, laws.literal_none h, Reply.bind_failed]

/-- A text up to a closing text, and that one. -/
theorem terminated_takeUntil (pat : List Char) (cur : Cursor) :
    c.terminated (c.takeUntil 0 pat) (c.literal pat) cur =
      .ofOption cur (cur.takeUntil? pat) := by
  rw [laws.terminated, laws.takeUntil, Cursor.takeUntil?]
  cases hcut : Text.cut? pat cur.rest with
  | none => rfl
  | some parts =>
    obtain ⟨before, after⟩ := parts
    have hread : cur.Reads (before ++ pat) (cur.past (before ++ pat) after) :=
      Cursor.reads_past (Text.cut?_eq_some hcut)
    obtain ⟨b, hbefore, hpat⟩ := hread.split
    have hb : cur.past before (pat ++ after) = b := by
      rw [← hbefore.past_eq, hpat.1]
      rfl
    simp only [Nat.zero_le, if_true, Reply.bind_done, hb]
    rw [laws.literal_some (Cursor.skip?_eq hpat)]
    rfl

/-- A text up to a closing character, and that one. Without it, the text is read to its end. -/
theorem terminated_takeTill (d : Char) (cur : Cursor) :
    c.terminated (c.takeTill 0 (· == d)) (c.literal [d]) cur =
      .ofOption cur.finish (cur.takeUntil? [d]) := by
  rw [laws.terminated, laws.takeTill, Reply.run_zero, Reply.bind_done]
  rcases htake : cur.takeWhile fun ch => !(ch == d) with ⟨s, next⟩
  obtain ⟨hread, hfree, hnext⟩ := Cursor.takeWhile_iff.1 htake
  have hs : d ∉ s := fun hd => by simpa using hfree d hd
  cases hskip : next.skip? [d] with
  | some after =>
    rw [Cursor.takeUntil?_singleton_iff.2 ⟨hread.trans (Cursor.reads_skip? hskip), hs⟩]
    rw [laws.literal_some hskip]
    rfl
  | none =>
    -- the run ends at the character or at the end of the text
    have hend : next.rest = [] := by
      cases hr : next.rest with
      | nil => rfl
      | cons ch rest =>
        have hch : ch = d := by simpa [hr] using hnext
        have hd : next.Reads [d] (next.past [d] rest) := Cursor.reads_past (by rw [hr, hch]; rfl)
        rw [Cursor.skip?_eq hd] at hskip
        cases hskip
    have hrest : cur.rest = s := by rw [hread.1, hend, List.append_nil]
    have hnone : cur.takeUntil? [d] = none := by
      cases hu : cur.takeUntil? [d] with
      | none => rfl
      | some result =>
        have hmem := (Cursor.reads_takeUntil? hu).1
        rw [hrest] at hmem
        exact absurd (by rw [hmem]; simp) hs
    have hfinish : next = cur.finish := by
      have hfull := cur.reads_finish
      rw [hrest] at hfull
      exact hread.unique hfull
    rw [hnone, laws.literal_none hskip, hfinish]
    rfl

theorem spaces_eq (cur : Cursor) :
    c.spaces cur = .done (cur.takeWhile isSpace).1 (cur.skipWhile isSpace) := by
  rw [laws.spaces, Reply.run_zero]
  rfl

theorem optional_done {a : α} (h : p cur = .done a inner) :
    c.optional p cur = .done (some a) inner := by
  rw [laws.optional_else p cur (h ▸ Reply.not_backtracks_done a inner), h]
  rfl

theorem optional_cut {contexts : List Context} (h : p cur = .failed (.cut contexts) inner) :
    c.optional p cur = .failed (.cut contexts) inner := by
  rw [laws.optional_else p cur (h ▸ Reply.not_backtracks_cut contexts inner), h]
  rfl

theorem alt_done (before : List (Parser α)) {after : List (Parser α)} {a : α}
    (hbefore : ∀ q ∈ before, (q cur).Backtracks) (h : p cur = .done a inner) :
    c.alt (before ++ p :: after) cur = .done a inner := by
  rw [laws.alt_first before p after cur hbefore (h ▸ Reply.not_backtracks_done a inner), h]

/-- The first alternative that does not backtrack counts. -/
theorem agrees_alt (before : List (Parser α)) {after : List (Parser α)}
    (hbefore : ∀ q ∈ before, (q cur).Backtracks) (h : (p cur).Agrees tells scanned)
    (hne : scanned ≠ .ok none) : (c.alt (before ++ p :: after) cur).Agrees tells scanned := by
  rw [laws.alt_first before p after cur hbefore (h.not_backtracks hne)]
  exact h

/-- Where all others backtrack, the last alternative counts. -/
theorem agrees_alt_last (before : List (Parser α)) (hbefore : ∀ q ∈ before, (q cur).Backtracks)
    (h : (p cur).Agrees tells scanned) : (c.alt (before ++ [p]) cur).Agrees tells scanned := by
  by_cases hne : scanned = .ok none
  · subst hne
    refine Reply.agrees_none_iff.2 (laws.alt_none _ cur fun q hq => ?_)
    rcases List.mem_append.1 hq with hq | hq
    · exact hbefore q hq
    · rw [List.mem_singleton.1 hq]
      exact Reply.agrees_none_iff.1 h
  · exact laws.agrees_alt before hbefore h hne

end Lawful

end Combinators

end ComponentMarkup.Markup
