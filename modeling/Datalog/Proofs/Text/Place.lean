import Datalog.Text.Place

/-!
# Places in order

The fewer characters remain behind a place, the greater are its offset and its
location.  Offsets tell any two places of a text apart.  Locations do not lie behind
each other, but need not tell two places apart: a place between a carriage return and
its line feed has a location of its own, in front of the start of the next line.

An offset is that of a place exactly if the text can be cut there (`Text.behind?`), and
then the place has a location.
-/

set_option autoImplicit false

namespace Datalog

/-! ## Offsets -/

namespace Text

theorem byteLength_pos {text : List Char} (some : text ≠ []) : 0 < byteLength text := by
  cases text with
  | nil => exact absurd rfl some
  | cons c rest =>
      have own := c.utf8Size_pos
      rw [byteLength]
      omega

/-- A place that is followed by more characters is preceded by fewer. -/
theorem before_prefix (code : List Char) {near far : Nat} (order : near ≤ far) :
    before code far <+: before code near :=
  List.take_prefix_take_left (by omega)

theorem offset_le_offset (code : List Char) {near far : Nat} (order : near ≤ far) :
    offset code far ≤ offset code near := by
  obtain ⟨between, same⟩ := before_prefix code order
  rw [offset, offset, ← same, byteLength_append]
  exact Nat.le_add_right _ _

/-- **Different places have different offsets.** -/
theorem offset_lt_offset {code : List Char} {near far : Nat} (order : near < far)
    (inside : near < code.length) : offset code far < offset code near := by
  obtain ⟨between, same⟩ := before_prefix code (Nat.le_of_lt order)
  have some : between ≠ [] := by
    rintro rfl
    have lengths := congrArg List.length same
    simp only [before, List.append_nil, List.length_take] at lengths
    omega
  have positive := byteLength_pos some
  rw [offset, offset, ← same, byteLength_append]
  omega

/-- The second part of a text starts where the first one ends. -/
theorem offset_append_length (front rest : List Char) :
    offset (front ++ rest) rest.length = byteLength front := by
  rw [offset, before_append]

/-- A place in the second part of a text is moved by the length of the first part. -/
theorem offset_append (front : List Char) {rest : List Char} {remaining : Nat}
    (within : remaining ≤ rest.length) :
    offset (front ++ rest) remaining = offset rest remaining + byteLength front := by
  have split : before (front ++ rest) remaining = front ++ before rest remaining := by
    have length : (front ++ rest).length - remaining =
        front.length + (rest.length - remaining) := by
      rw [List.length_append]
      omega
    rw [before, length, List.take_length_add_append, before]
  rw [offset, split, byteLength_append, offset, Nat.add_comm]

/-- A place in front of the second part of a text lies in the first part. -/
theorem offset_append_lt {front rest : List Char} {remaining : Nat}
    (inside : rest.length < remaining) (some : front ≠ []) :
    offset (front ++ rest) remaining < byteLength front := by
  have positive := List.length_pos_iff.mpr some
  rw [← offset_append_length front rest]
  apply offset_lt_offset inside
  rw [List.length_append]
  omega

/-! ## Looking offsets up -/

/-- What stands behind an offset.  There is nothing to be found inside a character or
beyond the end of the text. -/
def behind? : List Char → Nat → Option (List Char)
  | text, 0 => some text
  | [], _ + 1 => none
  | c :: rest, offset + 1 =>
    if c.utf8Size ≤ offset + 1 then behind? rest (offset + 1 - c.utf8Size) else none

theorem behind?_append (front rest : List Char) :
    behind? (front ++ rest) (byteLength front) = some rest := by
  induction front with
  | nil => rw [List.nil_append, byteLength, behind?]
  | cons c front ih =>
      obtain ⟨size, same⟩ : ∃ size, c.utf8Size + byteLength front = size + 1 :=
        ⟨c.utf8Size + byteLength front - 1, by have := c.utf8Size_pos; omega⟩
      rw [byteLength, List.cons_append, same, behind?, ← same, if_pos (Nat.le_add_right _ _),
        Nat.add_sub_cancel_left, ih]

/-- A text can be cut only between two of its characters. -/
theorem of_behind? {text rest : List Char} {offset : Nat}
    (found : behind? text offset = some rest) :
    ∃ front, text = front ++ rest ∧ byteLength front = offset := by
  induction text generalizing offset with
  | nil =>
      cases offset with
      | zero => exact ⟨[], Option.some.inj (behind?.eq_1 [] ▸ found), rfl⟩
      | succ offset => rw [behind?] at found; cases found
  | cons c text ih =>
      cases offset with
      | zero => exact ⟨[], Option.some.inj (behind?.eq_1 (c :: text) ▸ found), rfl⟩
      | succ offset =>
          rw [behind?] at found
          split at found
          next fits =>
            obtain ⟨front, rfl, length⟩ := ih found
            refine ⟨c :: front, rfl, ?_⟩
            rw [byteLength, length]
            omega
          next => cases found

/-- Behind a character the text can be cut again. -/
theorem behind?_next {text rest : List Char} {c : Char} {offset : Nat}
    (found : behind? text offset = some (c :: rest)) :
    behind? text (offset + c.utf8Size) = some rest := by
  obtain ⟨front, rfl, rfl⟩ := of_behind? found
  have cut := behind?_append (front ++ [c]) rest
  rwa [byteLength_append, byteLength, byteLength, Nat.add_zero, List.append_assoc] at cut

theorem offset_of_behind? {text rest : List Char} {place : Nat}
    (found : behind? text place = some rest) : offset text rest.length = place := by
  obtain ⟨front, rfl, rfl⟩ := of_behind? found
  exact offset_append_length front rest

/-- What a text ends with stands behind its offset. -/
theorem behind?_of_suffix {text rest : List Char} (suffix : rest <:+ text) :
    behind? text (offset text rest.length) = some rest := by
  obtain ⟨front, rfl⟩ := suffix
  rw [offset_append_length]
  exact behind?_append front rest

/-- **What a text ends with is told by its offset.** -/
theorem offset_eq_iff_of_suffix {text rest rest' : List Char} (suffix : rest <:+ text)
    (suffix' : rest' <:+ text) :
    offset text rest.length = offset text rest'.length ↔ rest = rest' := by
  constructor
  · intro same
    have cut := behind?_of_suffix suffix
    rw [same, behind?_of_suffix suffix'] at cut
    exact (Option.some.inj cut).symm
  · rintro rfl
    rfl

end Text

/-! ## Locations -/

namespace Location

/-- Locations are compared by their lines and, in one line, by their columns. -/
instance : LE Location where
  le first second :=
    first.line < second.line ∨ first.line = second.line ∧ first.column ≤ second.column

theorem le_iff {first second : Location} : first ≤ second ↔
    first.line < second.line ∨ first.line = second.line ∧ first.column ≤ second.column :=
  Iff.rfl

theorem le_refl (location : Location) : location ≤ location := .inr ⟨rfl, Nat.le_refl _⟩

theorem le_trans {first second third : Location} (before : first ≤ second)
    (behind : second ≤ third) : first ≤ third := by
  rw [le_iff] at before behind ⊢
  omega

theorem lt_nextLine {location later : Location} (line : location.line < later.line) :
    location ≤ later :=
  .inl line

theorem le_nextColumn (location : Location) : location ≤ ⟨location.line, location.column + 1⟩ :=
  .inr ⟨rfl, Nat.le_succ _⟩

/-- Passing over a text does not lead back. -/
theorem le_pass (location : Location) (text : List Char) : location ≤ location.pass text := by
  fun_induction pass location text with
  | case1 location => exact le_refl location
  | case2 location rest ih => exact le_trans (lt_nextLine (Nat.lt_succ_self _)) ih
  | case3 location rest ih => exact le_trans (lt_nextLine (Nat.lt_succ_self _)) ih
  | case4 location c rest notPair notFeed ih => exact le_trans (le_nextColumn location) ih

/-- **Passing over more does not lead back.**  A carriage return at the end of what is
passed may turn out to belong to a line feed. -/
theorem pass_le_pass_append (location : Location) (front rest : List Char) :
    location.pass front ≤ location.pass (front ++ rest) := by
  fun_induction pass location front with
  | case1 location => exact le_pass location rest
  | case2 location front ih => exact ih
  | case3 location front ih => rwa [List.cons_append, pass]
  | case4 location c front notPair notFeed ih =>
      by_cases pair : c = '\r' ∧ ∃ behind, front ++ rest = '\n' :: behind
      · obtain ⟨rfl, behind, same⟩ := pair
        cases front with
        | cons d front =>
            exact absurd (congrArg (· :: front) (List.cons.inj same).1) (notPair _ rfl)
        | nil =>
            rw [List.nil_append] at same
            rw [same, List.cons_append, List.nil_append, pass, pass]
            exact le_trans (lt_nextLine (Nat.lt_succ_self _)) (le_pass _ behind)
      · rw [List.cons_append, pass.eq_4 _ _ _ (fun behind isReturn same =>
          pair ⟨isReturn, behind, same⟩) notFeed]
        exact ih

/-- **Later places have later locations.** -/
theorem ofPlace_le_ofPlace (code : List Char) {near far : Nat} (order : near ≤ far) :
    ofPlace code far ≤ ofPlace code near := by
  obtain ⟨between, same⟩ := Text.before_prefix code order
  rw [ofPlace, ofPlace, ← same]
  exact pass_le_pass_append start _ between

/-- The location at an offset, if there is a place at the offset. -/
def at? (code : List Char) (offset : Nat) : Option Location :=
  (Text.behind? code offset).map fun rest => .ofPlace code rest.length

/-- **Every place has the location of its offset.** -/
theorem at?_offset {code : List Char} {remaining : Nat} (within : remaining ≤ code.length) :
    at? code (Text.offset code remaining) = some (.ofPlace code remaining) := by
  have split := List.take_append_drop (code.length - remaining) code
  have cut := Text.behind?_append (Text.before code remaining)
    (code.drop (code.length - remaining))
  rw [Text.before, split] at cut
  rw [at?, Text.offset, Text.before, cut, Option.map_some, List.length_drop,
    Nat.sub_sub_self within]

end Location

end Datalog
