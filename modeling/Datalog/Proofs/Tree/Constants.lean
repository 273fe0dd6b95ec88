import Datalog.Tree.Constants
import Mathlib.Data.List.Basic

/-!
# The constants of a clause as a list

The constants of a clause, in the order in which they are visited.  What is done
to the constants one by one is done to this list (`Clause.constants_map`), and
replacing them twice is replacing them once (`Clause.map_map`).
-/

set_option autoImplicit false

namespace Datalog

variable {ν ν' ν'' σ σ' σ'' : Type}

/-! ## The list -/

mutual
/-- The constants of an argument, from left to right. -/
def Argument.constants : Argument ν σ → List (ν ⊕ σ)
  | .nil => []
  | .number value => [.inl value]
  | .string value => [.inr value]
  | .variable _ => []
  | .unnamed => []
  | .counter => []
  | .aggregate _ none body => Literal.constantsAll body
  | .aggregate _ (some target) body => target.constants ++ Literal.constantsAll body

/-- The constants of a sequence of arguments. -/
def Argument.constantsAll : List (Argument ν σ) → List (ν ⊕ σ)
  | [] => []
  | argument :: rest => argument.constants ++ Argument.constantsAll rest

/-- The constants of a literal. -/
def Literal.constants : Literal ν σ → List (ν ⊕ σ)
  | .positive _ arguments => Argument.constantsAll arguments
  | .negative _ arguments => Argument.constantsAll arguments
  | .comparison _ left right => left.constants ++ right.constants
  | .truth _ => []

/-- The constants of a body. -/
def Literal.constantsAll : List (Literal ν σ) → List (ν ⊕ σ)
  | [] => []
  | literal :: rest => literal.constants ++ Literal.constantsAll rest
end

/-- The constants of a clause: those of its head, and then those of its body. -/
def Clause.constants (clause : Clause ν σ) : List (ν ⊕ σ) :=
  Argument.constantsAll clause.head.arguments ++ Literal.constantsAll clause.body

/-- What is said of the numbers in two parts is said of those in each. -/
theorem forall_inl_mem_append {front back : List (ν ⊕ σ)} {p : ν → Prop} :
    (∀ value, .inl value ∈ front ++ back → p value) ↔
      (∀ value, .inl value ∈ front → p value) ∧ ∀ value, .inl value ∈ back → p value := by
  simp only [List.mem_append, or_imp, forall_and]

/-! ## Replacing the constants -/

section Replacing

variable (number : ν → ν') (string : σ → σ')

mutual
theorem Argument.constants_map : ∀ argument : Argument ν σ,
    (argument.map number string).constants = argument.constants.map (Sum.map number string)
  | .nil | .number _ | .string _ | .variable _ | .unnamed | .counter => rfl
  | .aggregate _ none body => Literal.constantsAll_mapAll body
  | .aggregate _ (some target) body => by
      rw [Argument.map, Argument.constants, Argument.constants, List.map_append,
        Argument.constants_map target, Literal.constantsAll_mapAll body]

theorem Argument.constantsAll_mapAll : ∀ arguments : List (Argument ν σ),
    Argument.constantsAll (Argument.mapAll number string arguments) =
      (Argument.constantsAll arguments).map (Sum.map number string)
  | [] => rfl
  | argument :: rest => by
      rw [Argument.mapAll, Argument.constantsAll, Argument.constantsAll, List.map_append,
        Argument.constants_map argument, Argument.constantsAll_mapAll rest]

theorem Literal.constants_map : ∀ literal : Literal ν σ,
    (literal.map number string).constants = literal.constants.map (Sum.map number string)
  | .positive _ arguments => Argument.constantsAll_mapAll arguments
  | .negative _ arguments => Argument.constantsAll_mapAll arguments
  | .comparison _ left right => by
      rw [Literal.map, Literal.constants, Literal.constants, List.map_append,
        Argument.constants_map left, Argument.constants_map right]
  | .truth _ => rfl

theorem Literal.constantsAll_mapAll : ∀ body : List (Literal ν σ),
    Literal.constantsAll (Literal.mapAll number string body) =
      (Literal.constantsAll body).map (Sum.map number string)
  | [] => rfl
  | literal :: rest => by
      rw [Literal.mapAll, Literal.constantsAll, Literal.constantsAll, List.map_append,
        Literal.constants_map literal, Literal.constantsAll_mapAll rest]
end

/-- **What is done to a clause is done to its constants.** -/
theorem Clause.constants_map (clause : Clause ν σ) :
    (clause.map number string).constants = clause.constants.map (Sum.map number string) := by
  rw [Clause.constants, Clause.constants, List.map_append, ← Argument.constantsAll_mapAll,
    ← Literal.constantsAll_mapAll]
  rfl

variable (number' : ν' → ν'') (string' : σ' → σ'')

mutual
theorem Argument.map_map : ∀ argument : Argument ν σ,
    (argument.map number string).map number' string' =
      argument.map (number' ∘ number) (string' ∘ string)
  | .nil | .number _ | .string _ | .variable _ | .unnamed | .counter => rfl
  | .aggregate _ none body => by
      rw [Argument.map, Argument.map, Argument.map, Literal.mapAll_mapAll body]
  | .aggregate _ (some target) body => by
      rw [Argument.map, Argument.map, Argument.map, Argument.map_map target,
        Literal.mapAll_mapAll body]

theorem Argument.mapAll_mapAll : ∀ arguments : List (Argument ν σ),
    Argument.mapAll number' string' (Argument.mapAll number string arguments) =
      Argument.mapAll (number' ∘ number) (string' ∘ string) arguments
  | [] => rfl
  | argument :: rest => by
      rw [Argument.mapAll, Argument.mapAll, Argument.mapAll, Argument.map_map argument,
        Argument.mapAll_mapAll rest]

theorem Literal.map_map : ∀ literal : Literal ν σ,
    (literal.map number string).map number' string' =
      literal.map (number' ∘ number) (string' ∘ string)
  | .positive _ arguments => by
      rw [Literal.map, Literal.map, Literal.map, Argument.mapAll_mapAll arguments]
  | .negative _ arguments => by
      rw [Literal.map, Literal.map, Literal.map, Argument.mapAll_mapAll arguments]
  | .comparison _ left right => by
      rw [Literal.map, Literal.map, Literal.map, Argument.map_map left, Argument.map_map right]
  | .truth _ => rfl

theorem Literal.mapAll_mapAll : ∀ body : List (Literal ν σ),
    Literal.mapAll number' string' (Literal.mapAll number string body) =
      Literal.mapAll (number' ∘ number) (string' ∘ string) body
  | [] => rfl
  | literal :: rest => by
      rw [Literal.mapAll, Literal.mapAll, Literal.mapAll, Literal.map_map literal,
        Literal.mapAll_mapAll rest]
end

/-- **Replacing constants twice is replacing them once.** -/
theorem Clause.map_map (clause : Clause ν σ) :
    (clause.map number string).map number' string' =
      clause.map (number' ∘ number) (string' ∘ string) := by
  simp only [Clause.map, Atom.map, Argument.mapAll_mapAll, Literal.mapAll_mapAll]

end Replacing

/-! ## Replacing the numbers alike -/

section Alike

variable {number number' : ν → ν'} (string : σ → σ')

mutual
theorem Argument.map_congr : ∀ argument : Argument ν σ,
    (∀ value, .inl value ∈ argument.constants → number value = number' value) →
      argument.map number string = argument.map number' string
  | .nil, _ | .string _, _ | .variable _, _ | .unnamed, _ | .counter, _ => rfl
  | .number value, same => congrArg Argument.number (same value List.mem_cons_self)
  | .aggregate _ none body, same => by
      rw [Argument.map, Argument.map, Literal.mapAll_congr body same]
  | .aggregate _ (some target) body, same => by
      have ⟨first, second⟩ := forall_inl_mem_append.mp same
      rw [Argument.map, Argument.map, Argument.map_congr target first,
        Literal.mapAll_congr body second]

theorem Argument.mapAll_congr : ∀ arguments : List (Argument ν σ),
    (∀ value, .inl value ∈ Argument.constantsAll arguments → number value = number' value) →
      Argument.mapAll number string arguments = Argument.mapAll number' string arguments
  | [], _ => rfl
  | argument :: rest, same => by
      have ⟨first, second⟩ := forall_inl_mem_append.mp same
      rw [Argument.mapAll, Argument.mapAll, Argument.map_congr argument first,
        Argument.mapAll_congr rest second]

theorem Literal.map_congr : ∀ literal : Literal ν σ,
    (∀ value, .inl value ∈ literal.constants → number value = number' value) →
      literal.map number string = literal.map number' string
  | .positive _ arguments, same => by
      rw [Literal.map, Literal.map, Argument.mapAll_congr arguments same]
  | .negative _ arguments, same => by
      rw [Literal.map, Literal.map, Argument.mapAll_congr arguments same]
  | .comparison _ left right, same => by
      have ⟨first, second⟩ := forall_inl_mem_append.mp same
      rw [Literal.map, Literal.map, Argument.map_congr left first, Argument.map_congr right second]
  | .truth _, _ => rfl

theorem Literal.mapAll_congr : ∀ body : List (Literal ν σ),
    (∀ value, .inl value ∈ Literal.constantsAll body → number value = number' value) →
      Literal.mapAll number string body = Literal.mapAll number' string body
  | [], _ => rfl
  | literal :: rest, same => by
      have ⟨first, second⟩ := forall_inl_mem_append.mp same
      rw [Literal.mapAll, Literal.mapAll, Literal.map_congr literal first,
        Literal.mapAll_congr rest second]
end

/-- Only what happens to the numbers of a clause matters. -/
theorem Clause.map_congr (clause : Clause ν σ)
    (same : ∀ value, .inl value ∈ clause.constants → number value = number' value) :
    clause.map number string = clause.map number' string := by
  have ⟨head, body⟩ := forall_inl_mem_append.mp same
  rw [Clause.map, Clause.map, Atom.map, Atom.map, Argument.mapAll_congr string _ head,
    Literal.mapAll_congr string _ body]

end Alike

mutual
theorem Argument.map_id : ∀ argument : Argument ν σ, argument.map id id = argument
  | .nil | .number _ | .string _ | .variable _ | .unnamed | .counter => rfl
  | .aggregate _ none body => by rw [Argument.map, Literal.mapAll_id body]
  | .aggregate _ (some target) body => by
      rw [Argument.map, Argument.map_id target, Literal.mapAll_id body]

theorem Argument.mapAll_id : ∀ arguments : List (Argument ν σ),
    Argument.mapAll id id arguments = arguments
  | [] => rfl
  | argument :: rest => by
      rw [Argument.mapAll, Argument.map_id argument, Argument.mapAll_id rest]

theorem Literal.map_id : ∀ literal : Literal ν σ, literal.map id id = literal
  | .positive _ arguments => by rw [Literal.map, Argument.mapAll_id arguments]
  | .negative _ arguments => by rw [Literal.map, Argument.mapAll_id arguments]
  | .comparison _ left right => by
      rw [Literal.map, Argument.map_id left, Argument.map_id right]
  | .truth _ => rfl

theorem Literal.mapAll_id : ∀ body : List (Literal ν σ), Literal.mapAll id id body = body
  | [] => rfl
  | literal :: rest => by rw [Literal.mapAll, Literal.map_id literal, Literal.mapAll_id rest]
end

theorem Clause.map_id (clause : Clause ν σ) : clause.map id id = clause := by
  rw [Clause.map, Atom.map, Argument.mapAll_id, Literal.mapAll_id]

end Datalog
