import Datalog.Grammar.Production

/-!
# The grammar as it is written

The grammar once more, as data: its rules with their bodies, down to the characters.  A
rule says more than its body does.  It may allow layout between its elements or forbid it,
it may keep to itself what is missed inside it, and it may be transparent, so that it is
never missed itself.  A reader of a message is told the names of rules, and each rule has a
name, also those that are not meant to be listed.
-/

set_option autoImplicit false

namespace Datalog.Grammar

/-- The rules of the grammar: the productions, and the rules without a description. -/
inductive Rule where
  | production (production : Production)
  | blank
  | comment
  | nameCharacter
  | reservedWord
  | interior
  | nextStatement
  | layoutOnly
  | singleClause
deriving DecidableEq, Repr

/-- What a rule consists of. -/
inductive Expression where
  | sign (spelling : String)
  | character (kind : Char → Bool)
  /-- The place where the text begins. -/
  | start
  /-- The place where the text ends. -/
  | stop
  | rule (rule : Rule)
  | both (first second : Expression)
  | either (first second : Expression)
  | maybe (contents : Expression)
  | many (contents : Expression)
  /-- What is left of a repetition behind its first element. -/
  | more (contents : Expression)
  /-- The empty text, in front of anything but the contents. -/
  | absent (contents : Expression)

namespace Expression

instance : AndThen Expression := ⟨fun first second => both first (second ())⟩

instance : OrElse Expression := ⟨fun first second => either first (second ())⟩

/-- The rule of a production. -/
def of (production : Production) : Expression := rule (.production production)

def anything : Expression := character fun _ => true

def digit : Expression := character Char.isDigit

def newline : Expression := sign "\n" <|> sign "\r\n" <|> sign "\r"

/-- A character between quotes.  A backslash takes the next character with it. -/
def quoted : Expression :=
  sign "\\" >> anything <|> absent (sign "\"" <|> sign "\\") >> anything

/-- One of the given signs, in the order in which they are tried. -/
def oneOf : List String → Expression
  | [] => absent (sign "")
  | [spelling] => sign spelling
  | spelling :: others => sign spelling <|> oneOf others

/-- One of the given words, which no character of a name may follow. -/
def word (spellings : List String) : Expression :=
  oneOf spellings >> absent (rule .nameCharacter)

/-- One or more elements with commas between them. -/
def listed (contents : Expression) : Expression := contents >> many (sign "," >> contents)

def enclosed (opening closing : String) (contents : Expression) : Expression :=
  sign opening >> contents >> sign closing

/-- What may stand between the elements of a rule that does not forbid it. -/
def layout : Expression :=
  many (rule .blank) >> many (rule .comment >> many (rule .blank))

end Expression

/-- How the elements of a rule are tried. -/
inductive Manner where
  /-- Layout may stand between them. -/
  | spaced
  /-- They stand side by side. -/
  | joined
  /-- They stand side by side, and nothing is remembered of them. -/
  | closed
deriving DecidableEq, Repr

namespace Manner

/-- What stands between two elements. -/
def gap : Manner → Expression
  | spaced => .layout
  | joined | closed => .sign ""

/-- The manner inside a rule, from its own manner and the one around it. -/
def inside : Manner → Manner → Manner
  | spaced, around => around
  | joined, closed => closed
  | joined, _ => joined
  | closed, _ => closed

end Manner

namespace Rule

/-- Whether a rule is never missed itself. -/
def transparent : Rule → Bool
  | blank | comment | nameCharacter | nextStatement | singleClause => true
  | _ => false

/-- The manner that a rule asks for. -/
def manner : Rule → Manner
  | reservedWord | interior => .closed
  | production .identifier | production .nil | production .counter | production .number
  | production .unnamed | production .variable | production .aggregateKind | production .truth
  | production .operator | production .declarationKeyword | production .representation => .closed
  | production .string => .joined
  | _ => .spaced

open Expression in
/-- What a rule stands for. -/
def body : Rule → Expression
  | blank => sign " " <|> sign "\t" <|> newline
  | comment =>
      sign "//" >> many (absent newline >> anything) <|>
        sign "/*" >> many (absent (sign "*/") >> anything) >> sign "*/"
  | nameCharacter => character Char.isAlphanum <|> sign "_"
  | production .identifier =>
      (character Char.isAlpha <|> sign "_") >> many (rule .nameCharacter)
  | reservedWord => word ["nil", "min", "max", "count", "sum", "true", "false"]
  | production .nil => word ["nil"]
  | production .counter => sign "$"
  | production .number =>
      maybe (sign "-") >> (digit >> many digit) >> absent (rule .nameCharacter)
  | interior => many quoted
  | production .string => enclosed "\"" "\"" (rule .interior)
  | production .unnamed => word ["_"]
  | production .variable => absent (rule .reservedWord) >> of .identifier
  | production .aggregateKind => word ["min", "max", "count", "sum"]
  | production .aggregateBody =>
      enclosed "\x7b" "\x7d" (maybe (listed (of .literal))) <|> of .atom
  | production .aggregate =>
      of .aggregateKind >> maybe (of .argument) >> sign ":" >> of .aggregateBody
  | production .argument =>
      of .aggregate <|> of .nil <|> of .counter <|> of .number <|> of .string <|>
        of .unnamed <|> of .variable
  | production .atom =>
      of .identifier >> enclosed "(" ")" (maybe (listed (of .argument)))
  | production .negation => sign "!" >> of .atom
  | production .truth => word ["true", "false"]
  | production .operator => oneOf ["!=", "<=", ">=", "=", "<", ">"]
  | production .comparison => of .argument >> of .operator >> of .argument
  | production .literal => of .negation <|> of .atom <|> of .comparison <|> of .truth
  | production .body => sign ":-" >> listed (of .literal)
  | production .clause => of .atom >> maybe (of .body) >> sign "."
  | production .declarationKeyword => word [".decl"]
  | production .relationNames => listed (of .identifier)
  | production .attribute => of .identifier >> sign ":" >> of .identifier
  | production .attributes => maybe (listed (of .attribute))
  | production .representation => word ["btree", "brie", "eqrel"]
  | production .declaration =>
      of .declarationKeyword >> of .relationNames >> enclosed "(" ")" (of .attributes) >>
        maybe (of .representation >> absent (sign "("))
  | production .statement => of .declaration <|> of .clause
  | nextStatement => start >> of .statement
  | production .endOfInput => stop
  | layoutOnly => start >> of .endOfInput
  | singleClause => start >> of .clause >> of .endOfInput

/-- Every rule, the end of the text first and the others as they are written. -/
def all : List Rule :=
  [production .endOfInput, blank, comment, nameCharacter, production .identifier, reservedWord,
   production .nil, production .counter, production .number, interior, production .string,
   production .unnamed, production .variable, production .aggregateKind,
   production .aggregateBody, production .aggregate, production .argument, production .atom,
   production .negation, production .truth, production .operator, production .comparison,
   production .literal, production .body, production .clause, production .declarationKeyword,
   production .relationNames, production .attribute, production .attributes,
   production .representation, production .declaration, production .statement, nextStatement,
   layoutOnly, singleClause]

theorem mem_all (rule : Rule) : rule ∈ all := by
  have productions : ∀ named ∈ Production.all, production named ∈ all := by decide
  cases rule with
  | production named => exact productions named named.mem_all
  | _ => decide

/-- The name by which a rule is listed.  A rule without a description falls back on a name
that says nothing to a writer. -/
def name : Rule → String
  | production named => named.description
  | interior => "string"
  | reservedWord => "keyword"
  | layoutOnly => "end of input"
  | blank | comment | nameCharacter | nextStatement | singleClause => "input"

end Rule

/-- The wording of a refusal, from the rules that were expected and those that were found
where they must not stand. -/
def describe (expected unexpected : List Rule) : String :=
  if expected.isEmpty = false then
    "expected " ++ " or ".intercalate (expected.map Rule.name).eraseDups
  else if unexpected.isEmpty = false then
    "unexpected " ++ " or ".intercalate (unexpected.map Rule.name).eraseDups
  else "unexpected input"

end Datalog.Grammar
