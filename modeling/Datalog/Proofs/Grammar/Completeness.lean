import Datalog.Proofs.Grammar.Soundness
import Datalog.Proofs.Grammar.Unambiguity

/-!
# What can be derived is read

Whatever the grammar derives, the phrases of the language read.  Ordered choices
and greedy repetitions might have kept a reader from a text that the grammar
allows.  They do not, because an alternative that is tried too early is refused:
if it were read, it could be derived, and the grammar is unambiguous.

The arguments inside a phrase are read by a phrase of their own, which is only
assumed to find the arguments of shorter texts; every level of nesting then finds
those of texts one character longer (`nested_complete`).  So all levels that are
deep enough for a text agree on it (`nested_read_eq`).
-/

set_option autoImplicit false

namespace Datalog.Grammar

open Phrase

/-- Whatever can be derived from a text of fewer characters than the limit is read. -/
def Finds (phrase : Phrase SpelledArgument) (limit : Nat) : Prop :=
  ∀ {text : List Char} {tree : ArgumentTree} {rest : List Char}, text.length < limit →
    DerivesArgument text tree rest → phrase.read text = some (tree.spelled, rest)

/-- What has no derivation is refused. -/
theorem read_eq_none_of_sound {α τ : Type} {phrase : Phrase α}
    {Derives : List Char → τ → List Char → Prop} {spelled : τ → α}
    (sound : Sound phrase Derives spelled) {text : List Char}
    (none : ∀ tree rest, ¬ Derives text tree rest) : phrase.read text = .none := by
  cases read : phrase.read text with
  | none => rfl
  | some found =>
      obtain ⟨a, rest⟩ := found
      obtain ⟨tree, derives, -⟩ := sound read
      exact absurd derives (none tree rest)

theorem read_token_of_head_ne {spelling : String} {c : Char} {more : List Char}
    (spelled : spelling.toList = c :: more) {text : List Char} (other : text.head? ≠ some c) :
    (token spelling).read text = none := by
  cases read : (token spelling).read text with
  | none => rfl
  | some found =>
      obtain ⟨nothing, rest⟩ := found
      refine absurd ?_ other
      rw [(read_token_iff _ _ _ _).mp read, spelled]
      rfl

/-! ## Sequences with commas -/

section Sequences

variable {α τ : Type} {phrase : Phrase α} {Derives : List Char → τ → List Char → Prop}
  {spelled : τ → α} {Apart : List Char → Prop} {closing : Char}

/-- Repetition ends where no comma comes next. -/
theorem readMany_comma_stop {text : List Char} (ends : (skip text).head? ≠ some ',')
    (limit : Nat) : readMany (token "," *> phrase) limit text = ([], text) := by
  cases limit with
  | zero => rfl
  | succ limit =>
      have refused : (token "," *> phrase).read (skip text) = none := by
        change (both _ _ _).read (skip text) = none
        rw [read_both, read_token_of_head_ne (by rfl) ends]
        rfl
      rw [readMany, refused]

/-- Repetition goes on behind a comma. -/
theorem readMany_comma_step {text comma stop : List Char} {a : α}
    (continues : skip text = ',' :: comma) (found : phrase.read (skip comma) = some (a, stop))
    (limit : Nat) :
    readMany (token "," *> phrase) (limit + 1) text =
      (a :: (readMany (token "," *> phrase) limit stop).1,
        (readMany (token "," *> phrase) limit stop).2) := by
  have read : (token "," *> phrase).read (skip text) = some (a, stop) :=
    (read_seqRight_iff _ _ _ _ _).mpr
      ⟨comma, (), (read_token_iff _ _ _ _).mpr continues, found⟩
  rw [readMany, read]

variable (listable : Listable Derives Apart closing)
  (shrinks : ∀ {text tree rest}, Derives text tree rest → rest.length < text.length)
include listable

theorem Listable.readMany_stop {text inner : List Char} (ends : Layout text (closing :: inner))
    (limit : Nat) : readMany (token "," *> phrase) limit text = ([], text) := by
  refine readMany_comma_stop ?_ limit
  rw [ends.skip_eq_of_solid (listable.solid_closing inner)]
  simpa using listable.closing_ne

include shrinks

theorem readMany_complete {text comma next rest inner : List Char} {trees : List τ}
    (before : Layout text (',' :: comma)) (behind : Layout comma next)
    (separated : Separated Derives next trees rest) (ends : Layout rest (closing :: inner))
    (items : ∀ {text' tree stop}, text'.length ≤ next.length → Derives text' tree stop →
      Apart stop → phrase.read text' = some (spelled tree, stop))
    {limit : Nat} (enough : text.length ≤ limit) :
    readMany (token "," *> phrase) limit text = (trees.map spelled, rest) := by
  induction separated generalizing text comma limit with
  | single item =>
      have first := before.length_le
      rw [List.length_cons] at first
      obtain ⟨limit, rfl⟩ : ∃ less, limit = less + 1 := ⟨limit - 1, by omega⟩
      have read := items (Nat.le_refl _) item (listable.apart_closing ends)
      rw [← behind.skip_eq_of_solid (listable.solid item)] at read
      rw [readMany_comma_step (before.skip_eq_of_solid (solid_comma _)) read,
        listable.readMany_stop ends]
      rfl
  | more item before' behind' others ih =>
      have first := before.length_le
      have second := behind.length_le
      have third := shrinks item
      have fourth := before'.length_le
      have fifth := behind'.length_le
      rw [List.length_cons] at first fourth
      obtain ⟨limit, rfl⟩ : ∃ less, limit = less + 1 := ⟨limit - 1, by omega⟩
      have read := items (Nat.le_refl _) item (listable.apart_comma before')
      rw [← behind.skip_eq_of_solid (listable.solid item)] at read
      rw [readMany_comma_step (before.skip_eq_of_solid (solid_comma _)) read,
        ih before' behind' ends (fun bound => items (by omega)) (by omega)]
      rfl

/-- A sequence is read up to the layout in front of the sign that closes it. -/
theorem commaSeparated_complete {text rest inner : List Char} {trees : List τ}
    (separated : Separated Derives text trees rest) (ends : Layout rest (closing :: inner))
    (items : ∀ {text' tree stop}, text'.length ≤ text.length → Derives text' tree stop →
      Apart stop → phrase.read text' = some (spelled tree, stop)) :
    ∃ stop, (commaSeparated phrase).read text = some (trees.map spelled, stop) ∧
      skip stop = skip rest := by
  cases separated with
  | single item =>
      refine ⟨skip rest, (read_commaSeparated_iff _ _ _ _).mpr
        ⟨_, rest, [], items (Nat.le_refl _) item (listable.apart_closing ends), ?_, rfl⟩,
        skip_skip rest⟩
      rw [ends.skip_eq_of_solid (listable.solid_closing inner)]
      exact listable.readMany_stop (.nothing (closing :: inner)) _
  | @more _ stop comma next _ _ others item before behind separated =>
      have first := shrinks item
      have second := before.length_le
      have third := behind.length_le
      rw [List.length_cons] at second
      refine ⟨rest, (read_commaSeparated_iff _ _ _ _).mpr
        ⟨_, stop, others.map spelled, items (Nat.le_refl _) item (listable.apart_comma before),
          ?_, rfl⟩, rfl⟩
      rw [before.skip_eq_of_solid (solid_comma _)]
      exact readMany_complete listable shrinks (.nothing _) behind separated ends
        (fun bound => items (by omega)) (Nat.le_refl _)

/-- **A sequence in signs is read.** -/
theorem enclosed_complete (sound : Sound phrase Derives spelled) {opening last : String}
    {first : Char} (opens : opening.toList = [first]) (closes : last.toList = [closing])
    {text rest : List Char} {trees : List τ}
    (enclosed : Enclosed Derives first closing text trees rest)
    (items : ∀ {text' tree stop}, text'.length < text.length → Derives text' tree stop →
      Apart stop → phrase.read text' = some (spelled tree, stop)) :
    (token opening *> listOf phrase <* token last).read text = some (trees.map spelled, rest) := by
  refine (read_enclosed_iff _ _ _ _ _ _).mpr ?_
  rw [opens, closes]
  cases enclosed with
  | @empty inner _ before =>
      have stands := before.skip_eq_of_solid (listable.solid_closing rest)
      refine ⟨inner, closing :: rest, rfl, ?_, (listable.solid_closing rest).skip_eq⟩
      rw [stands]
      refine (read_listOf_iff _ _ _ _).mpr (.inr ⟨?_, rfl, rfl⟩)
      -- the sign that closes the sequence starts no item
      have refused : phrase.read (closing :: rest) = none :=
        read_eq_none_of_sound sound fun _ _ => listable.refuses
      cases read : (commaSeparated phrase).read (closing :: rest) with
      | none => rfl
      | some found =>
          obtain ⟨a, middle, others, item, -⟩ :=
            (read_commaSeparated_iff _ _ found.1 found.2).mp read
          rw [refused] at item
          cases item
  | @filled inner start stop _ _ before separated behind =>
      have bound := before.length_le
      obtain ⟨stop', read, same⟩ := commaSeparated_complete listable shrinks separated behind
        fun shorter => items (by rw [List.length_cons]; omega)
      refine ⟨inner, stop', rfl, ?_, ?_⟩
      · rw [before.skip_eq_of_solid (separated.solid listable)]
        exact (read_listOf_iff _ _ _ _).mpr (.inl read)
      · rw [same, behind.skip_eq_of_solid (listable.solid_closing rest)]
        rfl

end Sequences

/-! ## Clauses -/

section Contents

variable {inside : Phrase SpelledArgument} {limit : Nat}
  (sound : Sound inside DerivesArgument ArgumentTree.spelled) (finds : Finds inside limit)
include sound finds

theorem atomOver_complete {text rest : List Char} {tree : AtomTree}
    (bound : text.length ≤ limit) (derives : DerivesAtom text tree rest) :
    (atomOver inside).read text = some (tree.spelled, rest) := by
  cases derives with
  | @applied _ mark inner _ name arguments word before contents =>
      have first := word.length_lt
      have second := before.length_le
      have read : (token "(" *> listOf inside <* token ")").read inner = _ :=
        enclosed_complete listable_argument (fun item => item.length_lt) sound
          (by rfl) (by rfl) contents fun shorter item _ => finds (by omega) item
      rw [← before.skip_eq_of_solid (contents.solid (by decide))] at read
      rw [atomOver, read_named]
      refine (read_seq_iff _ _ _ _ _).mpr ⟨Atom.mk name, mark, _,
        (read_map_iff _ _ _ _ _).mpr ⟨name, (readName_eq_some_iff _ _ _).mpr word, rfl⟩, read, ?_⟩
      rw [AtomTree.spelled, ArgumentTree.spelledAll_eq_map]

omit sound finds in
theorem negationOver_refuses {c : Char} {text : List Char} (other : c ≠ '!') :
    (negationOver inside).read (c :: text) = none := by
  cases read : (negationOver inside).read (c :: text) with
  | none => rfl
  | some found =>
      rw [negationOver, read_named] at read
      obtain ⟨atom, read', -⟩ := (read_map_iff _ _ _ found.1 found.2).mp read
      obtain ⟨inner, nothing, mark, -⟩ := (read_seqRight_iff _ _ _ _ _).mp read'
      exact absurd (List.cons.inj ((read_token_iff _ _ _ _).mp mark)).1 other

omit finds in
/-- A comparison does not start as an atom does. -/
theorem atomOver_refuses {text stop sign inner : List Char} {tree : ArgumentTree}
    {operator : Comparison} (first : DerivesArgument text tree stop) (before : Layout stop sign)
    (spelled : OperatorText sign operator inner) : (atomOver inside).read text = none := by
  refine read_eq_none_of_sound (atomOver_sound sound) fun atom rest derives => ?_
  obtain ⟨name, mark, word, opens⟩ := derives.word
  exact first.not_applied before spelled word opens

omit sound in
theorem comparisonOver_complete {text stop mark inner start rest : List Char}
    {left right : ArgumentTree} {operator : Comparison} (bound : text.length < limit)
    (first : DerivesArgument text left stop) (before : Layout stop mark)
    (sign : OperatorText mark operator inner) (behind : Layout inner start)
    (second : DerivesArgument start right rest) :
    (comparisonOver inside).read text =
      some (.comparison operator left.spelled right.spelled, rest) := by
  have shorter := first.length_lt
  have further := before.length_le
  have more := sign.length_lt
  have last := behind.length_le
  have read := finds bound first
  have read' := finds (by omega) second
  have spelled := (readOperator_eq_some_iff _ _ _).mpr sign
  rw [← before.skip_eq_of_solid sign.solid] at spelled
  rw [← behind.skip_eq_of_solid second.solid] at read'
  rw [comparisonOver, read_named]
  refine (read_seq_iff _ _ _ _ _).mpr ⟨_, inner, _, ?_, read', rfl⟩
  exact (read_seq_iff _ _ _ _ _).mpr
    ⟨_, stop, operator, (read_map_iff _ _ _ _ _).mpr ⟨_, read, rfl⟩, spelled, rfl⟩

theorem literalOver_complete {text rest : List Char} {tree : LiteralTree}
    (bound : text.length < limit) (derives : DerivesLiteral text tree rest)
    (apart : ¬ Opens rest) : (literalOver inside).read text = some (tree.spelled, rest) := by
  rw [literalOver, read_named, read_orElse_iff]
  cases derives with
  | @negation inner start _ atom behind contents =>
      refine .inl ?_
      have further := behind.length_le
      rw [List.length_cons] at bound
      have read := atomOver_complete sound finds (by omega) contents
      rw [← behind.skip_eq_of_solid contents.solid] at read
      rw [negationOver, read_named]
      exact (read_map_iff _ _ _ _ _).mpr ⟨atom.spelled, (read_seqRight_iff _ _ _ _ _).mpr
        ⟨inner, (), (read_token_iff _ _ _ _).mpr rfl, read⟩, rfl⟩
  | atom contents =>
      have read := atomOver_complete sound finds (Nat.le_of_lt bound) contents
      obtain ⟨name, mark, word, -⟩ := contents.word
      obtain ⟨c, behind, rfl, starts⟩ := word.starts
      refine .inr ⟨negationOver_refuses ?_, (read_orElse_iff _ _ _ _ _).mpr (.inl ?_)⟩
      · rintro rfl
        exact absurd starts (by decide)
      · exact (read_map_iff _ _ _ _ _).mpr ⟨_, read, rfl⟩
  | comparison first before sign behind second =>
      have read := comparisonOver_complete finds bound first before sign behind second
      have refused := atomOver_refuses sound first before sign
      obtain ⟨c, more, rfl, starts⟩ := first.starts
      refine .inr ⟨negationOver_refuses ?_, (read_orElse_iff _ _ _ _ _).mpr (.inr
        ⟨by rw [read_map, refused]; rfl, (read_orElse_iff _ _ _ _ _).mpr (.inl read)⟩)⟩
      rintro rfl
      exact absurd starts (by decide)
  | @truth _ _ value word =>
      -- a word that is no atom, since no parenthesis follows it, and no argument
      have noAtom : (atomOver inside).read text = none := by
        refine read_eq_none_of_sound (atomOver_sound sound) fun atom stop derives => ?_
        obtain ⟨name, mark, word', opens⟩ := derives.word
        obtain ⟨-, rfl⟩ := word.unique word'
        exact apart opens
      have noComparison : (comparisonOver inside).read text = none := by
        cases read : (comparisonOver inside).read text with
        | none => rfl
        | some found =>
            rw [comparisonOver, read_named] at read
            obtain ⟨f, stop, right, front, -⟩ := (read_seq_iff _ _ _ found.1 found.2).mp read
            obtain ⟨g, mark, sign, mapped, -⟩ := (read_seq_iff _ _ _ _ _).mp front
            obtain ⟨left, read', -⟩ := (read_map_iff _ _ _ _ _).mp mapped
            obtain ⟨tree, first, -⟩ := sound read'
            exact (first.not_truth word).elim
      have read := (read_truth_iff _ _ _).mpr word
      obtain ⟨c, behind, rfl, starts⟩ := word.starts
      refine .inr ⟨negationOver_refuses ?_, (read_orElse_iff _ _ _ _ _).mpr (.inr
        ⟨by rw [read_map, noAtom]; rfl, (read_orElse_iff _ _ _ _ _).mpr (.inr
          ⟨noComparison, (read_map_iff _ _ _ _ _).mpr ⟨value, read, rfl⟩⟩)⟩)⟩
      rintro rfl
      exact absurd starts (by decide)

theorem aggregateBodyOver_complete {text rest : List Char} {tree : BodyTree}
    (bound : text.length ≤ limit) (derives : DerivesBody text tree rest) :
    (aggregateBodyOver inside).read text = some (tree.spelled, rest) := by
  rw [aggregateBodyOver, read_named, read_orElse_iff]
  cases derives with
  | @braced _ _ literals contents =>
      refine .inl ?_
      rw [BodyTree.spelled, LiteralTree.spelledAll_eq_map]
      exact enclosed_complete listable_literal_brace (fun item => item.length_lt)
        (literalOver_sound sound) (by rfl) (by rfl) contents
        fun shorter item apart => literalOver_complete sound finds (by omega) item apart
  | bare contents =>
      have read := atomOver_complete sound finds bound contents
      obtain ⟨name, mark, word, -⟩ := contents.word
      refine .inr ⟨?_, (read_map_iff _ _ _ _ _).mpr ⟨_, read, rfl⟩⟩
      refine read_eq_none_of_sound (enclosed_sound (literalOver_sound sound) (by rfl) (by rfl)) ?_
      intro trees stop enclosed
      obtain ⟨inner, rfl⟩ := enclosed.opens
      exact word.head_ne (by decide)

theorem aggregateOver_complete {text mark start : List Char} {kind : AggregateKind}
    (bound : text.length ≤ limit) (word : Word text kind.keyword mark)
    {target? : Option SpelledArgument} {stop inner rest : List Char} {body : BodyTree}
    (target : (maybe inside).read (skip mark) = some (target?, stop))
    (before : Layout stop (':' :: inner)) (behind : Layout inner start)
    (contents : DerivesBody start body rest) (shorter : stop.length ≤ mark.length) :
    (aggregateOver inside).read text = some (.aggregate kind target? body.spelled, rest) := by
  have first := word.length_lt
  have second := before.length_le
  have third := behind.length_le
  rw [List.length_cons] at second
  have read := aggregateBodyOver_complete sound finds (by omega) contents
  rw [← behind.skip_eq_of_solid contents.solid] at read
  rw [aggregateOver, read_named]
  have announced : aggregateKind.read text = some (kind, mark) :=
    (readWord_eq_some_iff _ _ _ _).mpr ⟨_, word, AggregateKind.ofKeyword?_keyword kind⟩
  have colon := before.skip_eq_of_solid (solid_colon inner)
  refine (read_seq_iff _ _ _ _ _).mpr ⟨_, stop, _,
    (read_seq_iff _ _ _ _ _).mpr ⟨_, mark, _, (read_map_iff _ _ _ _ _).mpr ⟨_, announced, rfl⟩,
      target, rfl⟩, ?_, rfl⟩
  exact (read_seqRight_iff _ _ _ _ _).mpr ⟨inner, (), (read_token_iff _ _ _ _).mpr colon, read⟩

omit finds in
/-- What one of the alternatives accepts is read by the right one. -/
theorem argumentOver_read_of_accepted {text rest : List Char} {tree : ArgumentTree}
    (derives : DerivesArgument text tree rest)
    (accepted : ((argumentOver inside).read text).isSome = true) :
    (argumentOver inside).read text = some (tree.spelled, rest) := by
  obtain ⟨⟨value, stop⟩, read⟩ := Option.isSome_iff_exists.mp accepted
  obtain ⟨tree', derives', rfl⟩ := argumentOver_sound sound read
  obtain ⟨rfl, rfl⟩ := derives.unique derives'
  exact read

theorem argumentOver_complete {text rest : List Char} {tree : ArgumentTree}
    (bound : text.length ≤ limit) (derives : DerivesArgument text tree rest) :
    (argumentOver inside).read text = some (tree.spelled, rest) := by
  refine argumentOver_read_of_accepted sound derives ?_
  rw [argumentOver, read_named]
  simp only [read_orElse, read_map, Option.isSome_or, Option.isSome_map, Bool.or_eq_true]
  cases derives with
  | @untargeted _ mark inner start _ kind body word before behind contents =>
      have stands := before.skip_eq_of_solid (solid_colon inner)
      have target : (maybe inside).read (skip mark) = some (none, skip mark) := by
        refine (read_maybe_iff _ _ _ _).mpr (.inr ⟨?_, rfl, rfl⟩)
        refine read_eq_none_of_sound sound fun tree stop reduced => ?_
        rw [stands] at reduced
        exact reduced.head_ne (by decide)
      have read := aggregateOver_complete sound finds bound word target
        (by rw [stands]; exact .nothing _) behind contents (length_skip_le mark)
      exact .inl (by rw [read]; rfl)
  | @targeted _ mark first stop inner start _ kind target body word front reduced before behind
      contents =>
      have shorter := word.length_lt
      have further := front.length_le
      have last := reduced.length_lt
      have target : (maybe inside).read (skip mark) = some (some target.spelled, stop) := by
        rw [front.skip_eq_of_solid reduced.solid]
        exact (read_maybe_iff _ _ _ _).mpr (.inl ⟨_, finds (by omega) reduced, rfl⟩)
      have read := aggregateOver_complete sound finds bound word target before behind contents
        (by omega)
      exact .inl (by rw [read]; rfl)
  | nil word =>
      have read : nil.read text = some ((), rest) := (readLiteralWord_iff _ _ _ _).mpr word
      exact .inr (.inl (by rw [read]; rfl))
  | counter =>
      have read : counter.read ('$' :: rest) = some ((), rest) :=
        (read_token_iff "$" _ _ _).mpr rfl
      exact .inr (.inr (.inl (by rw [read]; rfl)))
  | @number _ spelling _ digits =>
      have read : number.read text = some (⟨spelling, text.length⟩, rest) :=
        (readNumeral_eq_some_iff _ _ _).mpr ⟨digits, rfl⟩
      exact .inr (.inr (.inr (.inl (by rw [read]; rfl))))
  | @string inner interior _ isInterior spelled =>
      have read : string.read ('"' :: inner) =
          some (String.ofList (Text.unescape interior), rest) := by
        rw [spelled]
        exact readString_append isInterior rest
      exact .inr (.inr (.inr (.inr (.inl (by rw [read]; rfl)))))
  | unnamed word =>
      have read : unnamed.read text = some ((), rest) := (readLiteralWord_iff _ _ _ _).mpr word
      exact .inr (.inr (.inr (.inr (.inr (.inl (by rw [read]; rfl))))))
  | free word unreserved =>
      have read := (read_variableName_iff _ _ _).mpr ⟨word, unreserved⟩
      exact .inr (.inr (.inr (.inr (.inr (.inr (by rw [read]; rfl))))))

end Contents

/-- **A level of nesting finds the arguments of all texts that are shorter than it is deep.** -/
theorem nested_complete (depth : Nat) : Finds (nested argumentOver depth) depth := by
  induction depth with
  | zero => intro text tree rest bound; exact absurd bound (Nat.not_lt_zero _)
  | succ depth ih =>
      intro text tree rest bound derives
      have sound : Sound (defer fun _ => nested argumentOver depth) DerivesArgument
          ArgumentTree.spelled := fun read => nested_sound depth read
      have finds : Finds (defer fun _ => nested argumentOver depth) depth :=
        fun shorter derives' => ih shorter derives'
      exact argumentOver_complete sound finds (Nat.le_of_lt_succ bound) derives

/-- Levels that are deep enough for a text agree on it. -/
theorem nested_read_eq {text : List Char} {depth depth' : Nat} (enough : text.length < depth)
    (enough' : text.length < depth') :
    (nested argumentOver depth).read text = (nested argumentOver depth').read text := by
  cases read : (nested argumentOver depth).read text with
  | none =>
      symm
      refine read_eq_none_of_sound (nested_sound depth') fun tree rest derives => ?_
      rw [nested_complete depth enough derives] at read
      cases read
  | some found =>
      obtain ⟨value, rest⟩ := found
      obtain ⟨tree, derives, rfl⟩ := nested_sound depth read
      exact (nested_complete depth' enough' derives).symm

theorem argument_complete (limit : Nat) : Finds argument limit := by
  intro text tree rest _ derives
  exact nested_complete (text.length + 1) (Nat.lt_succ_self _) derives

theorem atom_complete {text rest : List Char} {tree : AtomTree}
    (derives : DerivesAtom text tree rest) : atom.read text = some (tree.spelled, rest) :=
  atomOver_complete argument_sound (argument_complete text.length) (Nat.le_refl _) derives

theorem literal_complete {text rest : List Char} {tree : LiteralTree}
    (derives : DerivesLiteral text tree rest) (apart : ¬ Opens rest) :
    literal.read text = some (tree.spelled, rest) :=
  literalOver_complete argument_sound (argument_complete (text.length + 1)) (Nat.lt_succ_self _)
    derives apart

theorem clause_complete {text rest : List Char} {tree : ClauseTree}
    (derives : DerivesClause text tree rest) :
    clause.read text = some (tree.spelled, rest) := by
  rw [clause, read_named]
  cases derives with
  | @fact stop _ head first behind =>
      have stands := behind.skip_eq_of_solid (solid_stop rest)
      have noBody : body.read (skip stop) = none := by
        have noSign : (token ":-").read ('.' :: rest) = none :=
          read_token_of_head_ne (show ":-".toList = ':' :: ['-'] from rfl) (by simp)
        rw [stands, body, read_named]
        change (both _ _ _).read ('.' :: rest) = none
        rw [read_both, noSign]
        rfl
      refine (read_seqLeft_iff _ _ _ _ _).mpr ⟨skip stop, (), ?_, ?_⟩
      · exact (read_seq_iff _ _ _ _ _).mpr
          ⟨_, stop, none, (read_map_iff _ _ _ _ _).mpr ⟨_, atom_complete first, rfl⟩,
            (read_maybe_iff _ _ _ _).mpr (.inr ⟨noBody, rfl, rfl⟩), rfl⟩
      · rw [skip_skip, stands]
        exact (read_token_iff _ _ _ _).mpr rfl
  | @rule stop inner start last _ head literals first before front contents behind =>
      obtain ⟨left, listed, same⟩ := commaSeparated_complete listable_literal_stop
        (fun item => item.length_lt) contents behind
        fun _ item apart => literal_complete item apart
      have read : body.read (skip stop) = some (LiteralTree.spelledAll literals, left) := by
        rw [before.skip_eq_of_solid (solid_colon _), body, read_named,
          LiteralTree.spelledAll_eq_map]
        refine (read_seqRight_iff _ _ _ _ _).mpr ⟨inner, (), (read_token_iff _ _ _ _).mpr rfl, ?_⟩
        rw [front.skip_eq_of_solid (contents.solid listable_literal_stop)]
        exact listed
      refine (read_seqLeft_iff _ _ _ _ _).mpr ⟨left, (), ?_, ?_⟩
      · exact (read_seq_iff _ _ _ _ _).mpr
          ⟨_, stop, some _, (read_map_iff _ _ _ _ _).mpr ⟨_, atom_complete first, rfl⟩,
            (read_maybe_iff _ _ _ _).mpr (.inl ⟨_, read, rfl⟩), rfl⟩
      · rw [same, behind.skip_eq_of_solid (solid_stop rest)]
        exact (read_token_iff _ _ _ _).mpr rfl

/-! ## Statements -/

theorem attributePhrase_complete {text rest : List Char} {column : Attribute}
    (derives : DerivesAttribute text column rest) :
    attributePhrase.read text = some (column, rest) := by
  cases derives with
  | @typed mark inner start _ name typeName word before behind second =>
      have word' := (readName_eq_some_iff _ _ _).mpr second
      rw [← behind.skip_eq_of_solid second.solid] at word'
      rw [attributePhrase, read_named]
      refine (read_seq_iff _ _ _ _ _).mpr ⟨_, mark, typeName,
        (read_map_iff _ _ _ _ _).mpr ⟨name, (readName_eq_some_iff _ _ _).mpr word, rfl⟩, ?_, rfl⟩
      exact (read_seqRight_iff _ _ _ _ _).mpr ⟨inner, (),
        (read_token_iff _ _ _ _).mpr (before.skip_eq_of_solid (solid_colon inner)), word'⟩

/-- What a declaration reads up to the end of its attributes. -/
theorem signature_complete {text rest : List Char} {names : List String}
    {columns : List Attribute} (derives : DerivesSignature text names columns rest) :
    ((fun names attributes (representation : Option Representation) =>
        (⟨names, attributes, representation.getD .default⟩ : Declaration)) <$>
      (declarationKeyword *> relationNames) <*> (token "(" *> attributes <* token ")")).read text =
      some (fun representation => ⟨names, columns, representation.getD .default⟩, rest) := by
  cases derives with
  | @declared mark start stop inner _ _ _ keyword ends front listed before contents =>
      obtain ⟨inner', rfl⟩ := contents.opens
      obtain ⟨left, read, same⟩ :
          ∃ left, (commaSeparated identifier).read start = some (names.map id, left) ∧
            skip left = skip stop :=
        commaSeparated_complete listable_word (fun word => word.length_lt) listed before
          fun _ word _ => (readName_eq_some_iff _ _ _).mpr word
      rw [← front.skip_eq_of_solid (listed.solid listable_word), List.map_id] at read
      have enclosed : (token "(" *> listOf attributePhrase <* token ")").read ('(' :: inner') =
          some (columns.map id, rest) :=
        enclosed_complete listable_attribute (fun item => item.length_lt) attributePhrase_sound
          (by rfl) (by rfl) contents fun _ item _ => attributePhrase_complete item
      rw [← before.skip_eq_of_solid (contents.solid (by decide)), ← same, List.map_id] at enclosed
      refine (read_seq_iff _ _ _ _ _).mpr
        ⟨fun attributes representation => ⟨names, attributes, representation.getD .default⟩,
          left, columns, ?_, enclosed, rfl⟩
      refine (read_map_iff _ _ _ _ _).mpr ⟨names, ?_, rfl⟩
      exact (read_seqRight_iff _ _ _ _ _).mpr
        ⟨mark, (), (read_declarationKeyword_iff _ _ _).mpr ⟨keyword, ends⟩, read⟩

/-- **A declaration that may end where it does is read.** -/
theorem declaration_complete {text rest : List Char} {tree : DeclarationTree}
    (derives : DerivesDeclaration text tree rest) (complete : Complete tree rest) :
    declaration.read text = some (tree.spelled, skip rest) := by
  rw [declaration, read_named]
  cases derives with
  | unqualified signature =>
      refine (read_seq_iff _ _ _ _ _).mpr ⟨_, rest, none, signature_complete signature, ?_, rfl⟩
      refine (read_maybe_iff _ _ _ _).mpr (.inr ⟨?_, rfl, rfl⟩)
      cases read : (qualifier <* absent '(').read (skip rest) with
      | none => rfl
      | some found =>
          obtain ⟨stop, asked, -⟩ := (read_qualifier_absent_iff _ found.1 found.2).mp read
          exact (complete rfl _ _ _ (layout_skip rest) asked).elim
  | @qualified stop start _ names columns representation signature before asked =>
      refine (read_seq_iff _ _ _ _ _).mpr
        ⟨_, stop, some representation, signature_complete signature, ?_, rfl⟩
      refine (read_maybe_iff _ _ _ _).mpr (.inl ⟨representation, ?_, rfl⟩)
      rw [before.skip_eq_of_solid asked.solid]
      exact (read_qualifier_absent_iff _ _ _).mpr ⟨rest, asked, rfl⟩

theorem declaration_refuses {text rest : List Char} {name : String} (word : Word text name rest) :
    declaration.read text = none := by
  cases read : declaration.read text with
  | none => rfl
  | some found =>
      obtain ⟨declared, behind⟩ := found
      obtain ⟨tree, stop, derives, -⟩ := declaration_sound read
      obtain ⟨behind, rfl⟩ := derives.starts
      exact (word.head_ne (by decide)).elim

/-- **A statement that may end where it does is read**, up to the layout behind it. -/
theorem statement_complete {text rest : List Char} {tree : StatementTree}
    (derives : DerivesStatement text tree rest) (complete : tree.Complete rest) :
    ∃ stop, statement.read text = some (tree.spelled, stop) ∧ Layout rest stop := by
  cases derives with
  | declaration contents =>
      refine ⟨skip rest, ?_, layout_skip rest⟩
      rw [statement, read_named]
      exact (read_orElse_iff _ _ _ _ _).mpr (.inl ((read_map_iff _ _ _ _ _).mpr
        ⟨_, declaration_complete contents complete, rfl⟩))
  | clause contents =>
      refine ⟨rest, ?_, .nothing rest⟩
      obtain ⟨name, mark, word, -⟩ := contents.opens
      rw [statement, read_named]
      exact (read_orElse_iff _ _ _ _ _).mpr (.inr ⟨by rw [read_map, declaration_refuses word]; rfl,
        (read_map_iff _ _ _ _ _).mpr ⟨_, clause_complete contents, rfl⟩⟩)

end Datalog.Grammar
