/-
  Class names of components.

  Every component that is expanded adds one token to the stack of tokens. A class is made of the
  last tokens of the stack: `class1` is the component's own token, `class2` has the token of the
  component around it too, up to `class5`; `class` has as many as configured.

  * `ClassConfig.token`: the token of a component; `ClassConfig.participates`: whether it adds one.
  * `ClassConfig.inScope`: a class inside a scope; `ClassConfig.collapse`: a class in which no token
    is doubled that occurs in the stack before the last one.
  * `ClassConfig.compute`: all classes of a component.
-/
import ComponentMarkup.Config.Basic
import ComponentMarkup.Log.Logged
import ComponentMarkup.Text.Digits
import ComponentMarkup.Tree.Basic

namespace ComponentMarkup

/-- The number of classes of fixed length. -/
def classLevels : Nat := 5

/-- The classes of a component. -/
structure ClassSet where
  /-- The class of the configured length. -/
  default : String
  /-- The classes of one, two, … tokens. -/
  levels : List String
deriving DecidableEq, Repr

/-- The class of `n` tokens, for the lengths that there are. -/
def ClassSet.level? (classes : ClassSet) (n : Nat) : Option String :=
  if n = 0 then none else classes.levels[n - 1]?

namespace ClassConfig

variable (config : ClassConfig)

/-- The token of a component: its `name` if that has letters or digits, else its tag. -/
def token (node : Node) : String :=
  match (node.attribute? "name").map (Naming.slug config.tagJoiner) with
  | some slug => if slug = "" then Naming.slug config.tagJoiner node.name else slug
  | none => Naming.slug config.tagJoiner node.name

/-- Whether components with the tag add a token to the stack. -/
def participates (tag : String) : Bool :=
  !config.skipTags.contains "*" &&
    !(config.skipTags.map Text.lowercase).contains (Text.lowercase tag)

/-- The number of tokens in a text: a positive number of 64 bits, with blanks around it. -/
def length? (s : String) : Option Nat :=
  match Text.readUnsigned? 10 (Text.trimChars s.toList) with
  | some n => if 0 < n ∧ n < UInt64.size then some n else none
  | none => none

/-- The number of tokens of the default class, which `inherit` can set for one component. -/
def lengthFor (node : Node) : Nat :=
  ((node.attribute? "inherit").bind length?).getD config.classLength

/-- The last `count` tokens of a stack, joined. -/
def trailing (stack : List String) (count : Nat) : String :=
  config.joiner.intercalate (stack.drop (stack.length - count))

/-- A class inside a scope: the scope comes before it, unless the class is empty, is the scope, or
has the scope as whole tokens at its start or between others. -/
def inScope (value scope : String) : String :=
  let before := scope ++ config.joiner
  if value = "" ∨ value = scope ∨ before.toList.isPrefixOf value.toList ∨
      Text.occursIn (config.joiner ++ before).toList value.toList then value
  else before ++ value

/-- Drops every part that repeats the part kept before it and is one of the given tokens. -/
def dropDoubles (earlier : List String) : List String → List String
  | [] => []
  | part :: parts => part :: go part parts
where
  /-- The parts to keep after `last`. -/
  go (last : String) : List String → List String
    | [] => []
    | part :: parts =>
      if part = last ∧ part ≠ "" ∧ part ∈ earlier then go last parts
      else part :: go part parts

/-- A class without doubled tokens of the stack before its last one. -/
def collapse (stack : List String) (value : String) : String :=
  config.joiner.intercalate (dropDoubles stack.dropLast (Text.splitAt config.joiner value))

/-- The class of `count` tokens of a component with the token `own`. A scope counts unless it is
empty or that token. -/
def classOf (own : String) (stack : List String) (scope : Option String) (count : Nat) : String :=
  let value := config.trailing stack count
  config.collapse stack <|
    match scope with
    | some scope => if scope = "" ∨ scope = own then value else config.inScope value scope
    | none => value

/-- The classes of a component. The stack holds its own token already, if it has one. -/
def compute (node : Node) (stack : List String) (scope : Option String) : Logged ClassSet := do
  let own := config.token node
  let classes : ClassSet :=
    ⟨config.classOf own stack scope (config.lengthFor node),
      (List.range classLevels).map fun i => config.classOf own stack scope (i + 1)⟩
  log (.classified own classes.default)
  return classes

end ClassConfig

end ComponentMarkup
