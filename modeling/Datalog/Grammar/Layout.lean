/-!
# Layout

Between the elements of a phrase there may be layout: spaces, tabs, line ends
and comments in any mixture.  A comment is either the rest of a line behind two
slashes, or whatever stands between a slash with a star and the next star with a
slash.  A comment of the second kind that is never closed is no layout, and
whoever skips layout stops in front of it.
-/

set_option autoImplicit false

namespace Datalog.Grammar

mutual
/-- What is left of a text behind the layout at its start. -/
def skip : List Char → List Char
  | ' ' :: rest => skip rest
  | '\t' :: rest => skip rest
  | '\n' :: rest => skip rest
  | '\r' :: rest => skip rest
  | '/' :: '/' :: rest => skipLine rest
  | '/' :: '*' :: rest =>
    match skipBlock rest with
    | some rest => rest
    | none => '/' :: '*' :: rest
  | text => text

/-- What is left behind a comment that reaches to the end of its line and behind
the layout that follows it. -/
def skipLine : List Char → List Char
  | [] => []
  | '\n' :: rest => skip rest
  | '\r' :: rest => skip rest
  | _ :: rest => skipLine rest

/-- What is left behind a comment that has to be closed and behind the layout
that follows it, if the comment is closed. -/
def skipBlock : List Char → Option (List Char)
  | [] => none
  | '*' :: '/' :: rest => some (skip rest)
  | _ :: rest => skipBlock rest
end

mutual
/-- Skipping layout leaves a suffix. -/
theorem skip_suffix : ∀ text : List Char, skip text <:+ text
  | [] => by simp [skip]
  | c :: rest => by
    unfold skip
    split
    next heq => cases heq; exact (skip_suffix _).trans (List.suffix_cons _ _)
    next heq => cases heq; exact (skip_suffix _).trans (List.suffix_cons _ _)
    next heq => cases heq; exact (skip_suffix _).trans (List.suffix_cons _ _)
    next heq => cases heq; exact (skip_suffix _).trans (List.suffix_cons _ _)
    next heq =>
      cases heq
      exact ((skipLine_suffix _).trans (List.suffix_cons _ _)).trans (List.suffix_cons _ _)
    next heq =>
      cases heq
      split
      next closed =>
        exact ((skipBlock_suffix _ _ closed).trans (List.suffix_cons _ _)).trans
          (List.suffix_cons _ _)
      next => exact List.suffix_rfl
    next => exact List.suffix_rfl

/-- Skipping a comment to the end of its line leaves a suffix. -/
theorem skipLine_suffix : ∀ text : List Char, skipLine text <:+ text
  | [] => by simp [skipLine]
  | c :: rest => by
    unfold skipLine
    split
    next => exact List.nil_suffix
    next heq => cases heq; exact (skip_suffix _).trans (List.suffix_cons _ _)
    next heq => cases heq; exact (skip_suffix _).trans (List.suffix_cons _ _)
    next heq => cases heq; exact (skipLine_suffix _).trans (List.suffix_cons _ _)

/-- Skipping a comment that is closed leaves a suffix. -/
theorem skipBlock_suffix : ∀ text left : List Char, skipBlock text = some left → left <:+ text
  | [], left, closed => by simp [skipBlock] at closed
  | c :: rest, left, closed => by
    unfold skipBlock at closed
    split at closed
    next => cases closed
    next heq =>
      cases heq
      cases closed
      exact ((skip_suffix _).trans (List.suffix_cons _ _)).trans (List.suffix_cons _ _)
    next heq =>
      cases heq
      exact (skipBlock_suffix _ _ closed).trans (List.suffix_cons _ _)
end

theorem length_skip_le (text : List Char) : (skip text).length ≤ text.length :=
  (skip_suffix text).length_le

end Datalog.Grammar
