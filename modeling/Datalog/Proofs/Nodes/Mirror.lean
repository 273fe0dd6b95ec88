import Datalog.Proofs.Nodes.Taking

/-!
# Phrases that read alike

Two phrases mirror each other if they refuse the same texts and leave the same rest of all
others, and if what they read is related.  Each way to put phrases together keeps this, so a
text is taken apart into nodes exactly where it is read as a clause.
-/

set_option autoImplicit false

namespace Datalog.Grammar

open Phrase

variable {α α' α'' β β' β'' γ γ' : Type}

/-- Two phrases refuse the same texts, leave the same of the others, and what they read is
related. -/
def Mirrors (phrase : Phrase α) (other : Phrase β) (related : α → β → Prop) : Prop :=
  ∀ text, Option.Rel (fun found found' => related found.1 found'.1 ∧ found.2 = found'.2)
    (phrase.read text) (other.read text)

/-- The nodes are one node for a production, and the nodes inside it are related to a
value. -/
def Around (production : Production) (related : α → List Node → Prop) (a : α)
    (nodes : List Node) : Prop :=
  ∃ spelling remaining inner,
    nodes = [.mk (.production production) spelling remaining inner] ∧ related a inner

namespace Mirrors

variable {phrase : Phrase α} {other : Phrase β} {phrase' : Phrase α'} {other' : Phrase β'}
  {related : α → β → Prop} {related' : α' → β' → Prop}

/-- What is read by one phrase is read by the other one. -/
theorem exists_read (mirrors : Mirrors phrase other related) {text rest : List Char} {a : α}
    (read : phrase.read text = some (a, rest)) :
    ∃ b, other.read text = some (b, rest) ∧ related a b := by
  have alike := mirrors text
  rw [read] at alike
  generalize other.read text = found' at alike
  cases alike with
  | @some _ found' holds =>
      obtain ⟨b, rest'⟩ := found'
      obtain ⟨related, rfl⟩ := holds
      exact ⟨b, rfl, related⟩

/-- What is made of the value makes no difference to how a text is read. -/
theorem mapLeft (f : α → γ) {image : γ → β → Prop}
    (mirrors : Mirrors phrase other fun a => image (f a)) :
    Mirrors (f <$> phrase) other image := by
  intro text
  have alike := mirrors text
  rw [read_map]
  generalize phrase.read text = found at alike
  generalize other.read text = found' at alike
  cases alike with
  | none => exact .none
  | some holds => exact .some holds

theorem mapRight (g : β → γ') {image : α → γ' → Prop}
    (mirrors : Mirrors phrase other fun a b => image a (g b)) :
    Mirrors phrase (g <$> other) image := by
  intro text
  have alike := mirrors text
  rw [read_map]
  generalize phrase.read text = found at alike
  generalize other.read text = found' at alike
  cases alike with
  | none => exact .none
  | some holds => exact .some holds

theorem mono {weaker : α → β → Prop} (implies : ∀ a b, related a b → weaker a b)
    (mirrors : Mirrors phrase other related) : Mirrors phrase other weaker := by
  intro text
  have alike := mirrors text
  generalize phrase.read text = found at alike
  generalize other.read text = found' at alike
  cases alike with
  | none => exact .none
  | some holds => exact .some ⟨implies _ _ holds.1, holds.2⟩

theorem map (f : α → γ) (g : β → γ') {image : γ → γ' → Prop}
    (implies : ∀ a b, related a b → image (f a) (g b)) (mirrors : Mirrors phrase other related) :
    Mirrors (f <$> phrase) (g <$> other) image :=
  .mapLeft f (.mapRight g (mirrors.mono implies))

theorem named (production : Production) (mirrors : Mirrors phrase other related) :
    Mirrors (named production phrase) other related :=
  mirrors

theorem refl (phrase : Phrase α) : Mirrors phrase phrase Eq := by
  intro text
  cases phrase.read text with
  | none => exact .none
  | some found => exact .some ⟨rfl, rfl⟩

/-- **Sequences of phrases that read alike read alike.** -/
theorem both {combine : α → α' → γ} {combine' : β → β' → γ'} {second : Unit → Phrase α'}
    {second' : Unit → Phrase β'} {image : γ → γ' → Prop} (mirrors : Mirrors phrase other related)
    (mirrors' : Mirrors (second ()) (second' ()) related')
    (implies : ∀ a b a' b', related a b → related' a' b' → image (combine a a') (combine' b b')) :
    Mirrors (both combine phrase second) (both combine' other second') image := by
  intro text
  have alike := mirrors text
  rw [read_both, read_both]
  generalize phrase.read text = found at alike
  generalize other.read text = found' at alike
  cases alike with
  | none => exact .none
  | @some found found' holds =>
      obtain ⟨a, rest⟩ := found
      obtain ⟨b, rest'⟩ := found'
      obtain ⟨first, rfl⟩ := holds
      have alike' := mirrors' (skip rest)
      simp only [Option.bind_some]
      generalize (second ()).read (skip rest) = left at alike'
      generalize (second' ()).read (skip rest) = left' at alike'
      cases alike' with
      | none => exact .none
      | some holds => exact .some ⟨implies _ _ _ _ first holds.1, holds.2⟩

theorem orElse {phrase' : Phrase α} {other' : Phrase β} (mirrors : Mirrors phrase other related)
    (mirrors' : Mirrors phrase' other' related) :
    Mirrors (phrase <|> phrase') (other <|> other') related := by
  intro text
  have alike := mirrors text
  rw [read_orElse, read_orElse]
  generalize phrase.read text = found at alike
  generalize other.read text = found' at alike
  cases alike with
  | none => exact mirrors' text
  | some holds => exact .some holds

theorem maybe (mirrors : Mirrors phrase other related) :
    Mirrors (maybe phrase) (maybe other) (Option.Rel related) := by
  intro text
  have alike := mirrors text
  simp only [Phrase.maybe]
  generalize phrase.read text = found at alike
  generalize other.read text = found' at alike
  cases alike with
  | none => exact .some ⟨.none, rfl⟩
  | some holds => exact .some ⟨.some holds.1, holds.2⟩

theorem readMany (mirrors : Mirrors phrase other related) (limit : Nat) (text : List Char) :
    List.Forall₂ related (readMany phrase limit text).1 (readMany other limit text).1 ∧
      (readMany phrase limit text).2 = (readMany other limit text).2 := by
  induction limit generalizing text with
  | zero => exact ⟨.nil, rfl⟩
  | succ limit ih =>
      have alike := mirrors (skip text)
      rw [Phrase.readMany, Phrase.readMany]
      generalize phrase.read (skip text) = found at alike
      generalize other.read (skip text) = found' at alike
      cases alike with
      | none => exact ⟨.nil, rfl⟩
      | @some found found' holds =>
          obtain ⟨a, rest⟩ := found
          obtain ⟨b, rest'⟩ := found'
          obtain ⟨first, rfl⟩ := holds
          exact ⟨.cons first (ih rest).1, (ih rest).2⟩

theorem many (mirrors : Mirrors phrase other related) :
    Mirrors (many phrase) (many other) (List.Forall₂ related) :=
  fun text => .some (mirrors.readMany text.length text)

/-! ### Sequences with signs -/

/-- A sign in front of phrases that read alike. -/
theorem behind (spelling : String) (mirrors : Mirrors phrase other related) :
    Mirrors (token spelling *> phrase) (token spelling *> other) related :=
  (refl (token spelling)).both mirrors fun _ _ _ _ _ holds => holds

/-- A sign behind phrases that read alike. -/
theorem inFront (spelling : String) (mirrors : Mirrors phrase other related) :
    Mirrors (phrase <* token spelling) (other <* token spelling) related :=
  mirrors.both (refl (token spelling)) fun _ _ _ _ holds _ => holds

theorem seq {first : Phrase (α → γ)} {first' : Phrase (β → γ')}
    {functions : (α → γ) → (β → γ') → Prop} {image : γ → γ' → Prop}
    (mirrors : Mirrors first first' functions) (mirrors' : Mirrors phrase other related)
    (implies : ∀ f g a b, functions f g → related a b → image (f a) (g b)) :
    Mirrors (first <*> phrase) (first' <*> other) image :=
  mirrors.both mirrors' implies

/-- Two phrases one behind the other, and what is made of both. -/
theorem two (combine : α → α' → γ) (combine' : β → β' → γ') {image : γ → γ' → Prop}
    (mirrors : Mirrors phrase other related) (mirrors' : Mirrors phrase' other' related')
    (implies : ∀ a b a' b', related a b → related' a' b' →
      image (combine a a') (combine' b b')) :
    Mirrors (combine <$> phrase <*> phrase') (combine' <$> other <*> other') image := by
  have first : Mirrors (combine <$> phrase) (combine' <$> other) fun f g =>
      ∀ a' b', related' a' b' → image (f a') (g b') :=
    mirrors.map combine combine' fun a b holds a' b' => implies a b a' b' holds
  exact first.seq mirrors' fun f g a' b' holds => holds a' b'

/-- Three phrases one behind the other, and what is made of all. -/
theorem three {phrase'' : Phrase α''} {other'' : Phrase β''} {related'' : α'' → β'' → Prop}
    (combine : α → α' → α'' → γ) (combine' : β → β' → β'' → γ') {image : γ → γ' → Prop}
    (mirrors : Mirrors phrase other related) (mirrors' : Mirrors phrase' other' related')
    (mirrors'' : Mirrors phrase'' other'' related'')
    (implies : ∀ a b a' b' a'' b'', related a b → related' a' b' → related'' a'' b'' →
      image (combine a a' a'') (combine' b b' b'')) :
    Mirrors (combine <$> phrase <*> phrase' <*> phrase'')
      (combine' <$> other <*> other' <*> other'') image := by
  have first : Mirrors (combine <$> phrase <*> phrase') (combine' <$> other <*> other') fun f g =>
      ∀ a'' b'', related'' a'' b'' → image (f a'') (g b'') :=
    mirrors.two combine combine' mirrors'
      fun a b a' b' holds holds' a'' b'' => implies a b a' b' a'' b'' holds holds'
  exact first.seq mirrors'' fun f g a'' b'' holds => holds a'' b''

theorem commaSeparated (mirrors : Mirrors phrase other related) :
    Mirrors (commaSeparated phrase) (commaSeparated other) (List.Forall₂ related) :=
  mirrors.two List.cons List.cons (mirrors.behind ",").many fun _ _ _ _ => List.Forall₂.cons

theorem listOf (mirrors : Mirrors phrase other related) :
    Mirrors (listOf phrase) (listOf other) (List.Forall₂ related) := by
  refine mirrors.commaSeparated.maybe.map _ _ fun found found' holds => ?_
  cases holds with
  | none => exact .nil
  | some holds => exact holds

/-! ### Recursion -/

/-- Phrases that contain themselves read alike if their contents do. -/
theorem recursive {contents : Phrase α → Phrase α} {contents' : Phrase β → Phrase β}
    (step : ∀ inside inside', Mirrors inside inside' related →
      Mirrors (contents inside) (contents' inside') related) :
    Mirrors (recursive contents) (recursive contents') related := by
  -- On each text both phrases allow for the same number of levels, and the induction is on it.
  have levels (depth : Nat) : Mirrors (nested contents depth) (nested contents' depth) related := by
    induction depth with
    | zero => exact fun text => .none
    | succ depth ih => exact step _ _ fun text => ih text
  exact fun text => levels (text.length + 1) text

/-! ### Nodes -/

/-- What is read as a production is one node around what is read inside. -/
theorem node (production : Production) {other : Phrase (List Node)}
    {related : α → List Node → Prop} (mirrors : Mirrors phrase other related) :
    Mirrors phrase (node production other) (Around production related) := by
  intro text
  have alike := mirrors text
  simp only [Grammar.node]
  generalize phrase.read text = found at alike
  generalize other.read text = found' at alike
  cases alike with
  | none => exact .none
  | some holds => exact .some ⟨⟨_, _, _, rfl, holds.1⟩, holds.2⟩

/-- What is read as a lexeme is one node with its spelling and its place. -/
theorem leaf (production : Production) {related : α → List Node → Prop}
    (holds : ∀ text a rest, phrase.read text = some (a, rest) → related a
      [.mk (.production production) (Text.before text rest.length) text.length []]) :
    Mirrors phrase (leaf production phrase) related := by
  intro text
  change Option.Rel _ _ (((fun _ => ([] : List Node)) <$> phrase).read text |>.map _)
  rw [read_map]
  cases read : phrase.read text with
  | none => exact .none
  | some found => exact .some ⟨holds text found.1 found.2 read, rfl⟩

end Mirrors

end Datalog.Grammar
