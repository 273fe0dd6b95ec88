import Datalog.Proofs.Interning
import Datalog.Proofs.Grammar.Lexical
import Datalog.Proofs.Nodes.Mirror

/-!
# Clauses are built from their nodes

A text that is read as a clause is taken apart into nodes, and what is built from them is
the interning of the clause: the same constants are visited in the same order, and none of
the errors for an unsuitable node arises (`mirrors_singleClause`).  For each production this
is one statement about the nodes that it yields, and the grammar's recursion passes it on
from the arguments inside an argument to the argument.
-/

set_option autoImplicit false

namespace Datalog

/-! ## Interning as a part of building -/

theorem Building.runFrom_bind {α β : Type} (first : Building α) (second : α → Building β)
    (table : SymbolTable) :
    (first >>= second).runFrom table =
      match first.runFrom table with
      | (.ok a, table) => (second a).runFrom table
      | (.error error, table) => (.error error, table) := by
  simp only [runFrom, ExceptT.run_bind, StateT.run_bind]
  rcases StateT.run (ExceptT.run first) table with ⟨_ | _, _⟩ <;> rfl

namespace Interning

variable {α β : Type}

theorem runFrom_build (interning : Interning α) (table : SymbolTable) :
    interning.build.runFrom table =
      ((interning.runFrom table).1.mapError .outOfRange, (interning.runFrom table).2) := rfl

theorem build_pure (a : α) : (pure a : Interning α).build = pure a := rfl

theorem build_bind (first : Interning α) (second : α → Interning β) :
    (first >>= second).build = first.build >>= fun a => (second a).build := by
  refine ExceptT.ext (StateT.ext fun table => ?_)
  change (first >>= second).build.runFrom table = (first.build >>= _).runFrom table
  rw [runFrom_build, runFrom_bind, Building.runFrom_bind, runFrom_build]
  rcases first.runFrom table with ⟨_ | _, _⟩ <;> rfl

end Interning

/-- An argument with its constants interned. -/
abbrev Argument.intern (argument : SpelledArgument) : Interning InternedArgument :=
  argument.traverse Numeral.intern internText

/-- A literal with its constants interned. -/
abbrev Literal.intern (literal : SpelledLiteral) : Interning InternedLiteral :=
  literal.traverse Numeral.intern internText

/-- Literals with their constants interned. -/
abbrev Literal.internAll (body : List SpelledLiteral) : Interning (List InternedLiteral) :=
  Literal.traverseAll Numeral.intern internText body

theorem Atom.build_holds (atom : SpelledAtom) :
    (Literal.intern atom.holds).build = Atom.holds <$> atom.intern.build := by
  rw [Atom.holds, Literal.intern, Literal.traverse, Atom.intern, Atom.traverse]
  simp only [Interning.build_bind, Interning.build_pure, map_bind, map_pure]
  rfl

theorem Atom.build_fails (atom : SpelledAtom) :
    (Literal.intern atom.fails).build = Atom.fails <$> atom.intern.build := by
  rw [Atom.fails, Literal.intern, Literal.traverse, Atom.intern, Atom.traverse]
  simp only [Interning.build_bind, Interning.build_pure, map_bind, map_pure]
  rfl

namespace Grammar

open Phrase

/-! ## Nodes from which something is built -/

/-- There is one node, and what is built from it is an interning. -/
def Alone {α : Type} (build : Node → Building α) (interning : Interning α)
    (nodes : List Node) : Prop :=
  ∃ node, nodes = [node] ∧ build node = interning.build

/-- The node for an argument. -/
abbrev BuildsArgument : SpelledArgument → List Node → Prop :=
  Around .argument fun argument => Alone Node.argumentForm argument.intern

/-- The node for a literal. -/
abbrev BuildsLiteral : SpelledLiteral → List Node → Prop :=
  Around .literal fun literal => Alone Node.literalForm literal.intern

/-- The node for an atom. -/
abbrev BuildsAtom : SpelledAtom → List Node → Prop :=
  Around .atom fun atom inner => Node.applied inner = atom.intern.build

/-- The node for the body of an aggregate. -/
abbrev BuildsBody : List SpelledLiteral → List Node → Prop :=
  Around .aggregateBody fun body inner => Node.conditions inner = (Literal.internAll body).build

/-- What is built from the node for an argument. -/
theorem BuildsArgument.exists_node {argument : SpelledArgument} {nodes : List Node}
    (builds : BuildsArgument argument nodes) :
    ∃ node, nodes = [node] ∧ node.kind = .production .argument ∧
      node.argument = argument.intern.build := by
  obtain ⟨spelling, remaining, inner, rfl, form, rfl, built⟩ := builds
  exact ⟨_, rfl, rfl, built⟩

theorem BuildsLiteral.exists_node {literal : SpelledLiteral} {nodes : List Node}
    (builds : BuildsLiteral literal nodes) :
    ∃ node, nodes = [node] ∧ node.kind = .production .literal ∧
      node.literal = literal.intern.build := by
  obtain ⟨spelling, remaining, inner, rfl, form, rfl, built⟩ := builds
  exact ⟨_, rfl, rfl, built⟩

theorem BuildsAtom.exists_node {atom : SpelledAtom} {nodes : List Node}
    (builds : BuildsAtom atom nodes) :
    ∃ node, nodes = [node] ∧ node.kind = .production .atom ∧ node.atom = atom.intern.build := by
  obtain ⟨spelling, remaining, inner, rfl, built⟩ := builds
  exact ⟨_, rfl, rfl, by rw [Node.atom, built]⟩

/-! ### Sequences of nodes -/

theorem arguments_of_all {arguments : List SpelledArgument} {parts : List (List Node)}
    (all : List.Forall₂ BuildsArgument arguments parts) :
    Node.arguments parts.flatten =
      (Argument.traverseAll Numeral.intern internText arguments).build := by
  induction all with
  | nil => rfl
  | cons first _ ih =>
      obtain ⟨node, rfl, -, built⟩ := first.exists_node
      rw [List.flatten_cons, List.singleton_append, Node.arguments, built, ih,
        Argument.traverseAll, Interning.build_bind]
      simp only [Interning.build_bind, Interning.build_pure]

theorem literals_of_all {body : List SpelledLiteral} {parts : List (List Node)}
    (all : List.Forall₂ BuildsLiteral body parts) :
    Node.literals parts.flatten = (Literal.internAll body).build := by
  induction all with
  | nil => rfl
  | cons first _ ih =>
      obtain ⟨node, rfl, -, built⟩ := first.exists_node
      rw [List.flatten_cons, List.singleton_append, Node.literals, Literal.internAll,
        Literal.traverseAll, built, ih]
      simp only [Interning.build_bind, Interning.build_pure]

theorem conditions_of_all {body : List SpelledLiteral} {parts : List (List Node)}
    (all : List.Forall₂ BuildsLiteral body parts) :
    Node.conditions parts.flatten = (Literal.internAll body).build := by
  induction all with
  | nil => rw [List.flatten_nil, Node.conditions]; rfl
  | cons first _ ih =>
      obtain ⟨node, rfl, kind, built⟩ := first.exists_node
      rw [List.flatten_cons, List.singleton_append, Node.conditions, kind, if_neg (by decide),
        Literal.internAll, Literal.traverseAll, built, ih]
      simp only [Interning.build_bind, Interning.build_pure]

/-- Behind its body, nothing is missing from an aggregate. -/
theorem aggregate_of_body {body : List SpelledLiteral} {nodes : List Node}
    (builds : BuildsBody body nodes) (kind : AggregateKind) (target : Option InternedArgument) :
    Node.aggregate kind target [] nodes =
      (Literal.internAll body).build >>= fun body => pure (.aggregate kind target body) := by
  obtain ⟨spelling, remaining, inner, rfl, built⟩ := builds
  rw [Node.aggregate]
  simp only [Node.kind, Node.body, Node.aggregate, built, List.nil_append]

/-! ## Lexemes -/

/-- The nodes are one node without nodes inside, with the given spelling. -/
def Spelled (production : Production) (spelling : List Char) (nodes : List Node) : Prop :=
  ∃ remaining, nodes = [.mk (.production production) spelling remaining []]

theorem Word.before_eq {text rest : List Char} {name : String} (word : Word text name rest) :
    Text.before text rest.length = name.toList := by
  rw [word.spelled, Text.before_append]

/-- A lexeme that is a word is a node with that word. -/
theorem mirrors_word {α : Type} (production : Production) {phrase : Phrase α} {word : α → String}
    (reads : ∀ text a rest, phrase.read text = some (a, rest) → Word text (word a) rest) :
    Mirrors phrase (leaf production phrase) fun a => Spelled production (word a).toList :=
  .leaf production fun text a rest read => ⟨text.length, by rw [(reads text a rest read).before_eq]⟩

theorem mirrors_identifier :
    Mirrors identifier (leaf .identifier identifier) fun name => Spelled .identifier name.toList :=
  mirrors_word .identifier fun text name rest => (readName_eq_some_iff text name rest).mp

theorem mirrors_aggregateKind : Mirrors aggregateKind (leaf .aggregateKind aggregateKind)
    fun kind => Spelled .aggregateKind kind.keyword.toList := by
  refine mirrors_word .aggregateKind fun text kind rest read => ?_
  obtain ⟨name, word, meant⟩ := (readWord_eq_some_iff _ _ _ _).mp read
  exact (ofKeyword?_eq_some_iff name kind).mp meant ▸ word

theorem mirrors_operator : Mirrors operator (leaf .operator operator)
    fun operator => Spelled .operator operator.operator.toList := by
  refine .leaf .operator fun text operator rest read => ⟨text.length, ?_⟩
  rw [((readOperator_eq_some_iff text operator rest).mp read).spelled, Text.before_append]

theorem mirrors_number : Mirrors number (leaf .number number) fun numeral nodes =>
    nodes = [.mk (.production .number) numeral.spelling numeral.remaining []] := by
  refine .leaf .number fun text numeral rest read => ?_
  obtain ⟨digits, place⟩ := (readNumeral_eq_some_iff text numeral rest).mp read
  rw [place, digits.spelled, Text.before_append]

/-- A string constant is a node around its interior. -/
theorem mirrors_string : Mirrors string stringNode (Around .string fun text inner =>
    ∃ interior place, inner = [.mk .interior interior place []] ∧
      String.ofList (Text.unescape interior) = text) := by
  refine .named .string (.node .string fun text => ?_)
  change Option.Rel _ (readString text) (readInteriorNode text)
  unfold readString
  split
  next inner =>
    rw [readInteriorNode]
    cases readInterior inner with
    | none => exact .none
    | some found => exact .some ⟨⟨_, _, rfl, rfl⟩, rfl⟩
  next notQuoted =>
    rw [readInteriorNode.eq_2 text notQuoted]
    exact .none

/-! ## The contents of arguments -/

section Contents

variable {argument : Phrase SpelledArgument} {inside : Phrase (List Node)}
  (mirrors : Mirrors argument inside BuildsArgument)

include mirrors

theorem mirrors_atomOver : Mirrors (atomOver argument) (atomNodeOver inside) BuildsAtom := by
  have listed : Mirrors (listOf argument) (List.flatten <$> listOf inside) fun arguments inner =>
      Node.arguments inner = (Argument.traverseAll Numeral.intern internText arguments).build :=
    .mapRight _ (mirrors.listOf.mono fun _ _ => arguments_of_all)
  refine .named .atom (.node .atom (.two Atom.mk List.append mirrors_identifier
    ((listed.behind "(").inFront ")") ?_))
  rintro name _ arguments inner ⟨remaining, rfl⟩ built
  change Node.applied (.mk _ _ _ _ :: inner) = _
  rw [Node.applied, Node.expect_mk, built, Atom.intern, Atom.traverse]
  simp only [Interning.build_bind, Interning.build_pure, pure_bind, Node.spelling,
    String.ofList_toList]

theorem mirrors_negationOver : Mirrors (negationOver argument) (negationNodeOver inside)
    fun literal => Alone Node.literalForm literal.intern := by
  have atom := ((mirrors_atomOver mirrors).behind "!").node .negation
  refine .named .negation (.mapLeft Atom.fails (atom.mono ?_))
  rintro atom _ ⟨spelling, remaining, inner, rfl, builds⟩
  obtain ⟨node, rfl, kind, built⟩ := builds.exists_node
  refine ⟨_, rfl, ?_⟩
  rw [Node.literalForm, Node.expect_of_kind kind, pure_bind, built, Atom.build_fails]

theorem mirrors_comparisonOver : Mirrors (comparisonOver argument) (comparisonNodeOver inside)
    fun literal => Alone Node.literalForm literal.intern := by
  have whole : Mirrors (comparisonOver argument) (comparisonNodeOver inside)
      (Around .comparison fun literal inner =>
        Node.comparison inner = (Literal.intern literal).build) := by
    refine .named .comparison (.node .comparison (.three _ _ mirrors mirrors_operator mirrors ?_))
    rintro left _ operator _ right _ first ⟨remaining, rfl⟩ second
    obtain ⟨node, rfl, kind, built⟩ := first.exists_node
    obtain ⟨node', rfl, kind', built'⟩ := second.exists_node
    change Node.comparison [node, .mk _ _ _ _, node'] = _
    rw [Node.comparison, Node.expect_of_kind kind, built, Literal.intern, Literal.traverse]
    simp only [Node.expect_mk, Node.spelling, String.ofList_toList,
      Comparison.ofOperator?_operator, Node.expect_of_kind kind', built', Interning.build_bind,
      Interning.build_pure, pure_bind]
  refine whole.mono ?_
  rintro literal _ ⟨spelling, remaining, inner, rfl, built⟩
  exact ⟨_, rfl, by rw [Node.literalForm, built]⟩

theorem mirrors_literalOver :
    Mirrors (literalOver argument) (literalNodeOver inside) BuildsLiteral := by
  have positive : Mirrors (Atom.holds <$> atomOver argument) (atomNodeOver inside) fun literal =>
      Alone Node.literalForm literal.intern := by
    refine .mapLeft Atom.holds ((mirrors_atomOver mirrors).mono ?_)
    rintro atom _ ⟨spelling, remaining, inner, rfl, built⟩
    exact ⟨_, rfl, by rw [Node.literalForm, built, Atom.build_holds]⟩
  have constant : Mirrors (Literal.truth <$> truth) (leaf .truth truth) fun literal =>
      Alone Node.literalForm literal.intern := by
    refine .mapLeft Literal.truth ((mirrors_word .truth fun text value rest =>
      (read_truth_iff text value rest).mp).mono ?_)
    rintro value _ ⟨remaining, rfl⟩
    exact ⟨_, rfl, by cases value <;> rfl⟩
  exact .named .literal (.node .literal ((mirrors_negationOver mirrors).orElse (positive.orElse
    ((mirrors_comparisonOver mirrors).orElse constant))))

theorem mirrors_aggregateBodyOver :
    Mirrors (aggregateBodyOver argument) (aggregateBodyNodeOver inside) BuildsBody := by
  have braced : Mirrors (listOf (literalOver argument))
      (List.flatten <$> listOf (literalNodeOver inside)) fun body inner =>
        Node.conditions inner = (Literal.internAll body).build :=
    .mapRight _ ((mirrors_literalOver mirrors).listOf.mono fun _ _ => conditions_of_all)
  have bare : Mirrors ((fun atom => [Atom.holds atom]) <$> atomOver argument)
      (atomNodeOver inside) fun body inner =>
        Node.conditions inner = (Literal.internAll body).build := by
    refine .mapLeft _ ((mirrors_atomOver mirrors).mono fun atom inner builds => ?_)
    obtain ⟨node, rfl, kind, built⟩ := builds.exists_node
    rw [Node.conditions, Node.conditions, kind, if_pos rfl, built, ← Atom.build_holds,
      Literal.internAll, Literal.traverseAll, Interning.build_bind]
    rfl
  exact .named .aggregateBody (.node .aggregateBody (((braced.behind "\x7b").inFront "\x7d").orElse
    bare))

theorem mirrors_aggregateOver : Mirrors (aggregateOver argument) (aggregateNodeOver inside)
    fun argument => Alone Node.argumentForm argument.intern := by
  have whole : Mirrors (aggregateOver argument) (aggregateNodeOver inside)
      (Around .aggregate fun argument inner => ∀ spelling remaining,
        Node.argumentForm (.mk (.production .aggregate) spelling remaining inner) =
          (Argument.intern argument).build) := by
    refine .named .aggregate (.node .aggregate (.three _ _ mirrors_aggregateKind mirrors.maybe
      ((mirrors_aggregateBodyOver mirrors).behind ":") ?_))
    rintro kind _ target target' body inner ⟨place, rfl⟩ targets builds spelling remaining
    cases targets with
    | none =>
        change Node.argumentForm (.mk _ _ _ (.mk _ _ _ _ :: inner)) = _
        rw [Node.argumentForm, Node.expect_mk, Argument.intern, Argument.traverse]
        simp only [Node.spelling, String.ofList_toList, AggregateKind.ofKeyword?_keyword,
          aggregate_of_body builds, Interning.build_bind, Interning.build_pure, pure_bind]
    | some holds =>
        obtain ⟨node, rfl, isArgument, built'⟩ := holds.exists_node
        change Node.argumentForm (.mk _ _ _ (.mk _ _ _ _ :: node :: inner)) = _
        rw [Node.argumentForm, Node.expect_mk, Argument.intern, Argument.traverse]
        simp only [Node.spelling, String.ofList_toList, AggregateKind.ofKeyword?_keyword,
          Node.aggregate, isArgument, built', aggregate_of_body builds, Interning.build_bind,
          Interning.build_pure, pure_bind]
  refine whole.mono ?_
  rintro argument _ ⟨spelling, remaining, inner, rfl, built⟩
  exact ⟨_, rfl, built spelling remaining⟩

theorem mirrors_argumentOver :
    Mirrors (argumentOver argument) (argumentNodeOver inside) BuildsArgument := by
  have absent : Mirrors ((fun _ => (.nil : SpelledArgument)) <$> nil) (leaf .nil nil)
      fun argument => Alone Node.argumentForm argument.intern :=
    .mapLeft _ (.leaf .nil fun _ _ _ _ => ⟨_, rfl, rfl⟩)
  have counted : Mirrors ((fun _ => (.counter : SpelledArgument)) <$> counter)
      (leaf .counter counter) fun argument => Alone Node.argumentForm argument.intern :=
    .mapLeft _ (.leaf .counter fun _ _ _ _ => ⟨_, rfl, rfl⟩)
  have numbered : Mirrors (Argument.number <$> number) (leaf .number number) fun argument =>
      Alone Node.argumentForm argument.intern := by
    refine .mapLeft _ (mirrors_number.mono ?_)
    rintro numeral _ rfl
    refine ⟨_, rfl, ?_⟩
    rw [Node.argumentForm, Argument.intern, Argument.traverse, Interning.build_bind]
    rfl
  have quoted : Mirrors (Argument.string <$> string) stringNode fun argument =>
      Alone Node.argumentForm argument.intern := by
    refine .mapLeft _ (mirrors_string.mono ?_)
    rintro text _ ⟨spelling, remaining, _, rfl, interior, place, rfl, rfl⟩
    refine ⟨_, rfl, ?_⟩
    rw [Node.argumentForm, Node.expect_mk, Argument.intern, Argument.traverse,
      Interning.build_bind]
    rfl
  have anonymous : Mirrors ((fun _ => (.unnamed : SpelledArgument)) <$> unnamed)
      (leaf .unnamed unnamed) fun argument => Alone Node.argumentForm argument.intern :=
    .mapLeft _ (.leaf .unnamed fun _ _ _ _ => ⟨_, rfl, rfl⟩)
  have free : Mirrors (Argument.variable <$> variableName) (leaf .variable variableName)
      fun argument => Alone Node.argumentForm argument.intern := by
    refine .mapLeft _ ((mirrors_word .variable fun text name rest read =>
      ((read_variableName_iff text name rest).mp read).1).mono ?_)
    rintro name _ ⟨remaining, rfl⟩
    exact ⟨_, rfl, by rw [Node.argumentForm, String.ofList_toList]; rfl⟩
  exact .named .argument (.node .argument ((mirrors_aggregateOver mirrors).orElse
    (absent.orElse (counted.orElse (numbered.orElse (quoted.orElse (anonymous.orElse free)))))))

end Contents

/-! ## Clauses -/

/-- **Whatever the arguments inside it, an argument is built from its node.** -/
theorem mirrors_argument : Mirrors Grammar.argument argumentNode BuildsArgument :=
  .recursive fun _ _ mirrors => mirrors_argumentOver mirrors

theorem mirrors_body : Mirrors body bodyNode
    (Around .body fun body inner => Node.literals inner = (Literal.internAll body).build) := by
  have listed : Mirrors (commaSeparated literal)
      (List.flatten <$> commaSeparated (literalNodeOver argumentNode)) fun body inner =>
        Node.literals inner = (Literal.internAll body).build :=
    .mapRight _ ((mirrors_literalOver mirrors_argument).commaSeparated.mono fun _ _ =>
      literals_of_all)
  exact .named .body (.node .body (listed.behind ":-"))

theorem mirrors_clause : Mirrors clause clauseNode
    (Around .clause fun clause inner => Node.clause inner = (Clause.intern clause).build) := by
  refine .named .clause (.node .clause (.inFront "." (.two _ _
    (mirrors_atomOver mirrors_argument) mirrors_body.maybe ?_)))
  rintro head _ body body' builds bodies
  obtain ⟨node, rfl, kind, built⟩ := builds.exists_node
  have interned (body : List SpelledLiteral) : (Clause.intern ⟨head, body⟩).build =
      head.intern.build >>= fun head =>
        (Literal.internAll body).build >>= fun body => pure ⟨head, body⟩ := by
    rw [Clause.intern, Clause.traverse]
    simp only [Interning.build_bind, Interning.build_pure]
    rfl
  rw [interned]
  cases bodies with
  | none =>
      change Node.clause [node] = _
      rw [Node.clause, Node.expect_of_kind kind, built]
      rfl
  | some holds =>
      obtain ⟨spelling, remaining, inner, rfl, built'⟩ := holds
      change Node.clause [node, .mk _ _ _ inner] = _
      rw [Node.clause, Node.expect_of_kind kind, built]
      simp only [built', pure_bind, Option.getD_some]

/-- **From the nodes of a single clause, the clause is built.**  A text is taken apart into
nodes exactly if it is read as a single clause, and what is built from the nodes is the
interning of that clause. -/
theorem mirrors_singleClause : Mirrors singleClause singleClauseNodes fun clause nodes =>
    Node.singleClause nodes = (Clause.intern clause).build := by
  have ended : Mirrors .endOfInput (leaf .endOfInput .endOfInput) fun _ _ => True :=
    .leaf .endOfInput fun _ _ _ _ => trivial
  have front : Mirrors clause (List.append <$> clauseNode) fun clause append =>
      ∀ nodes, Node.singleClause (append nodes) = (Clause.intern clause).build := by
    refine .mapRight _ (mirrors_clause.mono ?_)
    rintro clause _ ⟨spelling, remaining, inner, rfl, built⟩ nodes
    change Node.singleClause (.mk _ _ _ _ :: nodes) = _
    rw [Node.singleClause, Node.expect_mk, pure_bind, built]
  have whole : Mirrors (clause <* .endOfInput)
      (List.append <$> clauseNode <*> leaf .endOfInput .endOfInput) fun clause nodes =>
        Node.singleClause nodes = (Clause.intern clause).build :=
    front.both ended fun _ _ _ nodes holds _ => holds nodes
  exact fun text => whole (skip text)

end Grammar

end Datalog
