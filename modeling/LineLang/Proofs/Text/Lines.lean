import Mathlib.Data.List.TakeWhile
import LineLang.Text.Lines
import LineLang.Text.Space

/-! Lines of a text that is put together from parts.

A part that is empty or ends in a line feed has lines of its own, as many as it has line feeds, and leaves the
lines of what follows alone.
-/

set_option autoImplicit false

namespace LineLang.Text

section Split

variable {α : Type} [DecidableEq α] {feed carriage : α}

theorem splitLines_feed (rest : List α) :
    splitLines feed carriage (feed :: rest) = [] :: splitLines feed carriage rest := by
  rw [splitLines, if_pos rfl]

theorem exists_line_of_feed (feed carriage : α) (body rest : List α) :
    ∃ line lines, splitLines feed carriage (body ++ feed :: rest) = line :: lines := by
  induction body with
  | nil => exact ⟨_, _, splitLines_feed rest⟩
  | cons unit body ih =>
    rw [List.cons_append, splitLines]
    split
    · exact ⟨_, _, rfl⟩
    · split
      · exact ih
      · split <;> exact ⟨_, _, rfl⟩

theorem splitLines_append_feed (body rest : List α) :
    splitLines feed carriage (body ++ feed :: rest) =
      splitLines feed carriage (body ++ [feed]) ++ splitLines feed carriage rest := by
  induction body with
  | nil => simp [splitLines]
  | cons unit body ih =>
    have sameHead : (body ++ feed :: rest).head? = (body ++ [feed]).head? := by
      cases body <;> rfl
    rw [List.cons_append, List.cons_append, splitLines, splitLines, sameHead, ih]
    split
    · rfl
    · split
      · rfl
      · obtain ⟨line, lines, own⟩ := exists_line_of_feed feed carriage body []
        rw [own]
        rfl

theorem length_splitLines (body : List α) :
    (splitLines feed carriage (body ++ [feed])).length = (body ++ [feed]).count feed := by
  induction body with
  | nil => simp [splitLines]
  | cons unit body ih =>
    rw [List.cons_append, splitLines]
    split
    next isFeed => rw [isFeed, List.length_cons, List.count_cons_self, ih]
    next notFeed =>
      rw [List.count_cons_of_ne notFeed, ← ih]
      split
      · rfl
      · obtain ⟨line, lines, own⟩ := exists_line_of_feed feed carriage body []
        rw [own]
        rfl

theorem mem_of_mem_splitLines {units line : List α} (isLine : line ∈ splitLines feed carriage units) :
    ∀ unit ∈ line, unit ∈ units := by
  induction units generalizing line with
  | nil => cases isLine
  | cons first units ih =>
    have later : ∀ line ∈ splitLines feed carriage units, ∀ unit ∈ line, unit ∈ first :: units :=
      fun line isLine unit isOne => List.mem_cons_of_mem _ (ih isLine unit isOne)
    rw [splitLines] at isLine
    split at isLine
    · rcases List.mem_cons.mp isLine with rfl | isLater
      · exact List.forall_mem_nil _
      · exact later line isLater
    · split at isLine
      · exact later line isLine
      · split at isLine
        next =>
          rw [List.mem_singleton.mp isLine]
          exact List.forall_mem_singleton.mpr List.mem_cons_self
        next head lines own =>
          rw [own] at later
          rcases List.mem_cons.mp isLine with rfl | isLater
          · exact List.forall_mem_cons.mpr ⟨List.mem_cons_self, later head List.mem_cons_self⟩
          · exact later line (List.mem_cons_of_mem _ isLater)

theorem feed_not_mem_of_mem_splitLines {units line : List α} (isLine : line ∈ splitLines feed carriage units) :
    feed ∉ line := by
  induction units generalizing line with
  | nil => cases isLine
  | cons first units ih =>
    rw [splitLines] at isLine
    split at isLine
    · rcases List.mem_cons.mp isLine with rfl | isLater
      · exact List.not_mem_nil
      · exact ih isLater
    next notFeed =>
      split at isLine
      · exact ih isLine
      · split at isLine
        next =>
          rw [List.mem_singleton.mp isLine, List.mem_singleton]
          exact Ne.symm notFeed
        next head lines own =>
          rcases List.mem_cons.mp isLine with rfl | isLater
          · rw [List.mem_cons, not_or]
            exact ⟨Ne.symm notFeed, ih (own ▸ List.mem_cons_self)⟩
          · exact ih (own ▸ List.mem_cons_of_mem _ isLater)

end Split

/-- Empty, or ended by a line feed. -/
def EndsLine (text : String) : Prop :=
  text = "" ∨ text.toList.getLast? = some '\n'

def countFeeds (text : String) : Nat :=
  text.toList.count '\n'

theorem EndsLine.toList_eq {text : String} (ends : EndsLine text) :
    text.toList = [] ∨ ∃ body, text.toList = body ++ ['\n'] := by
  rcases ends with rfl | last
  · exact .inl String.toList_empty
  · exact .inr (List.getLast?_eq_some_iff.mp last)

theorem lines_append {first : String} (ends : EndsLine first) (second : String) :
    lines (first ++ second) = lines first ++ lines second := by
  unfold lines
  rw [String.toList_append, ← List.map_append]
  rcases ends.toList_eq with empty | ⟨body, parts⟩
  · rw [empty]
    rfl
  · rw [parts, List.append_assoc, List.singleton_append, splitLines_append_feed]

theorem length_lines {text : String} (ends : EndsLine text) : (lines text).length = countFeeds text := by
  unfold lines countFeeds
  rw [List.length_map]
  rcases ends.toList_eq with empty | ⟨body, parts⟩
  · rw [empty]
    rfl
  · rw [parts, length_splitLines]

theorem feed_not_mem_of_mem_lines {text line : String} (isLine : line ∈ lines text) : '\n' ∉ line.toList := by
  obtain ⟨chars, isPart, rfl⟩ := List.mem_map.mp isLine
  rw [String.toList_ofList]
  exact feed_not_mem_of_mem_splitLines isPart

theorem isBlank_of_mem_lines {text line : String} (blank : isBlank text = true) (isLine : line ∈ lines text) :
    isBlank line = true := by
  obtain ⟨chars, isPart, rfl⟩ := List.mem_map.mp isLine
  rw [isBlank, String.toList_ofList, List.all_eq_true]
  intro c isOne
  exact List.all_eq_true.mp blank c (mem_of_mem_splitLines isPart c isOne)

theorem exists_trimmed (text : String) :
    ∃ before after, text.toList = before ++ ((trim text).toList ++ after) ∧ (∀ c ∈ before, isSpace c = true) ∧
      ∀ c ∈ after, isSpace c = true := by
  refine ⟨text.toList.takeWhile isSpace, ((text.toList.dropWhile isSpace).reverse.takeWhile isSpace).reverse, ?_,
    fun c isOne => List.mem_takeWhile_imp isOne, fun c isOne => List.mem_takeWhile_imp (List.mem_reverse.mp isOne)⟩
  rw [trim, String.toList_ofList, ← List.reverse_append, List.takeWhile_append_dropWhile, List.reverse_reverse,
    List.takeWhile_append_dropWhile]

theorem trim_of_isBlank {text : String} (blank : isBlank text = true) : trim text = "" := by
  rw [trim, List.dropWhile_eq_nil_iff.mpr (List.all_eq_true.mp blank)]
  rfl

end LineLang.Text
