/-! Parentheses in a text.

A part in which every parenthesis is closed can be told from what comes after it, as long as what comes after it begins
with a character that does not stand outside the parentheses of the part. The last group of a text can be told from
what comes before it without any condition.
-/

set_option autoImplicit false

namespace LineLang.Text

/-- How many parentheses are open after the characters, where `depth` are open before. There is no answer if one is
closed that is not open, or if a character that `stops` stands outside all parentheses. -/
def nesting (stops : Char → Bool) (depth : Nat) : List Char → Option Nat
  | [] => some depth
  | c :: rest =>
    if depth = 0 ∧ stops c = true then none
    else if c = '(' then nesting stops (depth + 1) rest
    else if c = ')' then if depth = 0 then none else nesting stops (depth - 1) rest
    else nesting stops depth rest

/-- Every parenthesis is closed, and no character that `stops` stands outside them. -/
def Closed (stops : Char → Bool) (chars : List Char) : Prop :=
  nesting stops 0 chars = some 0

def Balanced (chars : List Char) : Prop :=
  Closed (fun _ => false) chars

variable {stops others : Char → Bool} {first second chars : List Char}

theorem nesting_append (depth : Nat) (first second : List Char) :
    nesting stops depth (first ++ second) = (nesting stops depth first).bind (nesting stops · second) := by
  induction first generalizing depth with
  | nil => rfl
  | cons c first ih =>
    rw [List.cons_append, nesting, nesting]
    split
    · rfl
    · split
      · exact ih _
      · split
        · split
          · rfl
          · exact ih _
        · exact ih _

theorem nesting_add {depth after more : Nat} (closes : nesting stops depth chars = some after)
    (weaker : more = 0 → ∀ c, others c = true → stops c = true) :
    nesting others (depth + more) chars = some (after + more) := by
  induction chars generalizing depth with
  | nil =>
    cases closes
    rfl
  | cons c chars ih =>
    rw [nesting] at closes ⊢
    split at closes
    · cases closes
    next goesOn =>
      have alsoGoesOn : ¬ (depth + more = 0 ∧ others c = true) := by
        rintro ⟨outside, stopped⟩
        exact goesOn ⟨by omega, weaker (by omega) c stopped⟩
      rw [if_neg alsoGoesOn]
      split at closes
      next isLeft =>
        rw [if_pos isLeft, Nat.add_right_comm]
        exact ih closes
      next notLeft =>
        rw [if_neg notLeft]
        split at closes
        next isRight =>
          split at closes
          · cases closes
          next inside =>
            rw [if_pos isRight, if_neg (by omega), Nat.sub_add_comm (by omega)]
            exact ih closes
        next notRight =>
          rw [if_neg notRight]
          exact ih closes

namespace Closed

theorem nil : Closed stops [] := rfl

theorem append (closed : Closed stops first) (after : Closed stops second) : Closed stops (first ++ second) := by
  rw [Closed, nesting_append, closed]
  exact after

theorem weaken (closed : Closed stops chars) (weaker : ∀ c, others c = true → stops c = true) : Closed others chars :=
  @nesting_add stops others chars 0 0 0 closed fun _ => weaker

theorem balanced (closed : Closed stops chars) : Balanced chars :=
  closed.weaken nofun

theorem parens (inside : Closed others chars) (outside : stops '(' = false) :
    Closed stops ('(' :: (chars ++ [')'])) := by
  have deeper : nesting stops 1 chars = some 1 := @nesting_add others stops chars 0 0 1 inside (by omega)
  rw [Closed, nesting, if_neg (by simp [outside]), if_pos rfl, nesting_append, deeper]
  rfl

theorem cons {c : Char} (goesOn : stops c = false) (noParen : c ≠ '(' ∧ c ≠ ')') (closed : Closed stops chars) :
    Closed stops (c :: chars) := by
  rw [Closed, nesting, if_neg (by simp [goesOn]), if_neg noParen.1, if_neg noParen.2]
  exact closed

theorem of_plain (plain : ∀ c ∈ chars, stops c = false ∧ c ≠ '(' ∧ c ≠ ')') : Closed stops chars := by
  induction chars with
  | nil => exact nil
  | cons c chars ih =>
    obtain ⟨⟨goesOn, noParen⟩, others⟩ := List.forall_mem_cons.mp plain
    exact cons goesOn noParen (ih others)

theorem not_append_stop (closed : Closed stops first) {c : Char} (stopped : stops c = true) (rest : List Char) :
    ¬ Closed stops (first ++ c :: rest) := by
  rw [Closed, nesting_append, closed]
  change nesting stops 0 (c :: rest) ≠ some 0
  rw [nesting, if_pos ⟨rfl, stopped⟩]
  exact (Option.some_ne_none 0).symm

theorem cut {following otherFollowing : List Char} (closed : Closed stops first) (alsoClosed : Closed stops second)
    (stopped : ∀ c ∈ following.head?, stops c = true) (alsoStopped : ∀ c ∈ otherFollowing.head?, stops c = true)
    (same : first ++ following = second ++ otherFollowing) : first = second ∧ following = otherFollowing := by
  rcases List.append_eq_append_iff.mp same with ⟨between, rfl, rfl⟩ | ⟨between, rfl, rfl⟩
  · cases between with
    | nil => simp
    | cons c between => exact absurd alsoClosed (closed.not_append_stop (stopped c rfl) between)
  · cases between with
    | nil => simp
    | cons c between => exact absurd closed (alsoClosed.not_append_stop (alsoStopped c rfl) between)

theorem not_append_open (after : Closed others second) (first : List Char) : ¬ Closed stops (first ++ '(' :: second) := by
  intro closed
  rw [Closed, nesting_append, Option.bind_eq_some_iff] at closed
  obtain ⟨depth, -, closes⟩ := closed
  rw [nesting] at closes
  split at closes
  · cases closes
  · have deeper := @nesting_add others stops second 0 0 (depth + 1) after (by omega)
    rw [if_pos rfl, ← Nat.zero_add (depth + 1), deeper] at closes
    cases closes

theorem last {inside otherInside : List Char} (closed : Closed stops inside) (alsoClosed : Closed others otherInside)
    (same : first ++ '(' :: (inside ++ [')']) = second ++ '(' :: (otherInside ++ [')'])) :
    first = second ∧ inside = otherInside := by
  have shorter : first ++ '(' :: inside = second ++ '(' :: otherInside := by
    rw [← List.cons_append, ← List.cons_append, ← List.append_assoc, ← List.append_assoc] at same
    exact List.append_cancel_right same
  rcases List.append_eq_append_iff.mp shorter with ⟨between, rfl, parts⟩ | ⟨between, rfl, parts⟩
  · cases between with
    | nil => exact ⟨(List.append_nil _).symm, (List.cons.inj parts).2⟩
    | cons c between =>
      obtain ⟨-, rfl⟩ := List.cons.inj parts
      exact absurd closed (alsoClosed.not_append_open between)
  · cases between with
    | nil => exact ⟨List.append_nil _, (List.cons.inj parts).2.symm⟩
    | cons c between =>
      obtain ⟨-, rfl⟩ := List.cons.inj parts
      exact absurd alsoClosed (closed.not_append_open between)

end Closed

namespace Balanced

theorem append (balanced : Balanced first) (after : Balanced second) : Balanced (first ++ second) :=
  Closed.append balanced after

theorem cons {c : Char} (noParen : c ≠ '(' ∧ c ≠ ')') (balanced : Balanced chars) : Balanced (c :: chars) :=
  Closed.cons rfl noParen balanced

theorem spaced {c : Char} (noParen : c ≠ '(' ∧ c ≠ ')') (balanced : Balanced chars) :
    Balanced (' ' :: c :: ' ' :: chars) :=
  .cons (by decide) (.cons noParen (.cons (by decide) balanced))

end Balanced

theorem toList_intercalate_cons (text : String) (texts : List String) :
    (String.intercalate " " (text :: texts)).toList =
      text.toList ++ if texts = [] then [] else ' ' :: (String.intercalate " " texts).toList := by
  cases texts with
  | nil => simp
  | cons next texts => simp [String.intercalate_cons_cons]

theorem closed_intercalate {texts : List String} (blank : stops ' ' = false)
    (closed : ∀ text ∈ texts, Closed stops text.toList) : Closed stops (String.intercalate " " texts).toList := by
  induction texts with
  | nil => exact .nil
  | cons text texts ih =>
    obtain ⟨first, others⟩ := List.forall_mem_cons.mp closed
    rw [toList_intercalate_cons]
    refine first.append ?_
    split
    · exact .nil
    · exact .cons blank (by decide) (ih others)

theorem intercalate_inj {texts others : List String} (blank : stops ' ' = true)
    (closed : ∀ text ∈ texts, text.toList ≠ [] ∧ Closed stops text.toList)
    (alsoClosed : ∀ text ∈ others, text.toList ≠ [] ∧ Closed stops text.toList)
    (same : (String.intercalate " " texts).toList = (String.intercalate " " others).toList) : texts = others := by
  induction texts generalizing others with
  | nil =>
    cases others with
    | nil => rfl
    | cons other others =>
      rw [toList_intercalate_cons] at same
      exact absurd (List.append_eq_nil_iff.mp same.symm).1 (alsoClosed other List.mem_cons_self).1
  | cons text texts ih =>
    cases others with
    | nil =>
      rw [toList_intercalate_cons] at same
      exact absurd (List.append_eq_nil_iff.mp same).1 (closed text List.mem_cons_self).1
    | cons other others =>
      obtain ⟨⟨-, first⟩, closed⟩ := List.forall_mem_cons.mp closed
      obtain ⟨⟨-, otherFirst⟩, alsoClosed⟩ := List.forall_mem_cons.mp alsoClosed
      rw [toList_intercalate_cons, toList_intercalate_cons] at same
      obtain ⟨sameFirst, sameRest⟩ := first.cut otherFirst (by split <;> simp [blank])
        (by split <;> simp [blank]) same
      rw [String.toList_inj.mp sameFirst]
      split at sameRest
      next none =>
        split at sameRest
        next alsoNone => rw [none, alsoNone]
        · cases sameRest
      next =>
        split at sameRest
        · cases sameRest
        · rw [ih closed alsoClosed (List.cons.inj sameRest).2]

end LineLang.Text
