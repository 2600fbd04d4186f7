/-! Frames: what each name stands for.

The entries are kept in ascending order of their names, by code point, each name once.
-/

set_option autoImplicit false

namespace LineLang

structure Frame (α : Type) where
  entries : List (String × α) := []

namespace Frame

variable {α : Type}

def empty : Frame α := ⟨[]⟩

def get? (frame : Frame α) (name : String) : Option α :=
  frame.entries.lookup name

def names (frame : Frame α) : List String :=
  frame.entries.map Prod.fst

/-- Puts an entry in its place, instead of the one with the same name if there is one. -/
def insertEntry (name : String) (value : α) : List (String × α) → List (String × α)
  | [] => [(name, value)]
  | (other, held) :: rest =>
    if name < other then (name, value) :: (other, held) :: rest
    else if name = other then (name, value) :: rest
    else (other, held) :: insertEntry name value rest

def insert (frame : Frame α) (name : String) (value : α) : Frame α :=
  ⟨insertEntry name value frame.entries⟩

/-- Inserts from the left, so a later entry takes the place of an earlier one. -/
def insertAll (frame : Frame α) (entries : List (String × α)) : Frame α :=
  entries.foldl (fun frame entry => frame.insert entry.1 entry.2) frame

/-- Where the upper frame has a name, its value hides the one below. -/
def cover (frame upper : Frame α) : Frame α :=
  frame.insertAll upper.entries.reverse

theorem lookup_cons (name key : String) (held : α) (rest : List (String × α)) :
    ((key, held) :: rest).lookup name = if name = key then some held else rest.lookup name := by
  by_cases same : name = key
  · simp [same]
  · have different : (name == key) = false := by simp [same]
    simp [List.lookup_cons, different, same]

theorem lookup_insertEntry (name other : String) (value : α) (entries : List (String × α)) :
    (insertEntry name value entries).lookup other =
      if other = name then some value else entries.lookup other := by
  induction entries with
  | nil => simp [insertEntry, lookup_cons]
  | cons entry rest ih =>
    obtain ⟨key, held⟩ := entry
    rw [insertEntry]
    split
    · simp [lookup_cons]
    · split
      next same =>
        subst same
        simp only [lookup_cons]
        split <;> rfl
      next different =>
        rw [lookup_cons, ih, lookup_cons]
        split
        next found => subst found; simp [Ne.symm different]
        next => rfl

theorem insertEntry_insertEntry (name : String) (value other : α) (entries : List (String × α)) :
    insertEntry name value (insertEntry name other entries) = insertEntry name value entries := by
  have first : ∀ rest, insertEntry name value ((name, other) :: rest) = (name, value) :: rest := by
    intro rest
    rw [insertEntry, if_neg (String.lt_irrefl name), if_pos rfl]
  induction entries with
  | nil => exact first []
  | cons entry rest ih =>
    obtain ⟨key, held⟩ := entry
    rw [insertEntry, insertEntry]
    split
    · exact first _
    next notBefore =>
      split
      · exact first _
      next different => rw [insertEntry, if_neg notBefore, if_neg different, ih]

theorem insert_insert (frame : Frame α) (name : String) (value other : α) :
    (frame.insert name other).insert name value = frame.insert name value :=
  congrArg Frame.mk (insertEntry_insertEntry name value other frame.entries)

-- Holds of entries in any order: the new entry stands before every other one of its name.
theorem get?_insert (frame : Frame α) (name other : String) (value : α) :
    (frame.insert name value).get? other = if other = name then some value else frame.get? other :=
  lookup_insertEntry name other value frame.entries

theorem get?_insertAll (frame : Frame α) (entries : List (String × α)) (name : String) :
    (frame.insertAll entries).get? name = (entries.reverse.lookup name).or (frame.get? name) := by
  induction entries generalizing frame with
  | nil => rfl
  | cons entry rest ih =>
    obtain ⟨key, held⟩ := entry
    have step : frame.insertAll ((key, held) :: rest) = (frame.insert key held).insertAll rest := rfl
    rw [step, ih, get?_insert, List.reverse_cons, List.lookup_append, lookup_cons]
    cases rest.reverse.lookup name with
    | some value => rfl
    | none => by_cases same : name = key <;> simp [same]

theorem get?_cover (frame upper : Frame α) (name : String) :
    (frame.cover upper).get? name = (upper.get? name).or (frame.get? name) := by
  rw [cover, get?_insertAll, List.reverse_reverse]
  rfl

theorem mem_names (frame : Frame α) (name : String) :
    name ∈ frame.names ↔ ∃ value, frame.get? name = some value := by
  rw [← Option.isSome_iff_exists, get?, List.lookup_isSome_iff, names, List.mem_map]
  simp only [beq_iff_eq, @eq_comm _ name]

theorem mem_names_insert (frame : Frame α) (name other : String) (value : α) :
    other ∈ (frame.insert name value).names ↔ other = name ∨ other ∈ frame.names := by
  rw [mem_names, mem_names, get?_insert]
  by_cases same : other = name <;> simp [same]

theorem names_subset_insert (frame : Frame α) (name : String) (value : α) :
    frame.names ⊆ (frame.insert name value).names :=
  fun other bound => (frame.mem_names_insert name other value).mpr (.inr bound)

def Sorted (frame : Frame α) : Prop :=
  frame.names.Pairwise (· < ·)

theorem mem_insertEntry (name : String) (value : α) (entries : List (String × α)) :
    ∀ entry ∈ insertEntry name value entries, entry = (name, value) ∨ entry ∈ entries := by
  induction entries with
  | nil => simp [insertEntry]
  | cons head rest ih =>
    obtain ⟨key, held⟩ := head
    intro entry member
    rw [insertEntry] at member
    split at member
    · simpa using member
    · split at member
      · rcases List.mem_cons.mp member with first | later
        · exact .inl first
        · exact .inr (List.mem_cons_of_mem _ later)
      · rcases List.mem_cons.mp member with first | later
        · exact .inr (first ▸ List.mem_cons_self)
        · rcases ih entry later with new | old
          · exact .inl new
          · exact .inr (List.mem_cons_of_mem _ old)

theorem Sorted.insert {frame : Frame α} (sorted : frame.Sorted) (name : String) (value : α) :
    (frame.insert name value).Sorted := by
  obtain ⟨entries⟩ := frame
  simp only [Sorted, names, Frame.insert] at sorted ⊢
  induction entries with
  | nil => simp [insertEntry]
  | cons head rest ih =>
    obtain ⟨key, held⟩ := head
    simp only [List.map_cons, List.pairwise_cons] at sorted
    obtain ⟨above, sorted⟩ := sorted
    rw [insertEntry]
    split
    next before =>
      simp only [List.map_cons, List.pairwise_cons]
      refine ⟨?_, above, sorted⟩
      intro other member
      rcases List.mem_cons.mp member with rfl | member
      · exact before
      · exact String.lt_trans before (above other member)
    next notBefore =>
      split
      next same => subst same; exact List.pairwise_cons.mpr ⟨above, sorted⟩
      next different =>
        simp only [List.map_cons, List.pairwise_cons]
        refine ⟨?_, ih sorted⟩
        intro other member
        obtain ⟨entry, inside, rfl⟩ := List.mem_map.mp member
        rcases mem_insertEntry name value rest entry inside with rfl | old
        · exact Std.lt_of_le_of_ne (String.not_lt.mp notBefore) (Ne.symm different)
        · exact above _ (List.mem_map_of_mem old)

theorem Sorted.insertAll {frame : Frame α} (sorted : frame.Sorted) (entries : List (String × α)) :
    (frame.insertAll entries).Sorted := by
  induction entries generalizing frame with
  | nil => exact sorted
  | cons entry rest ih => exact ih (sorted.insert entry.1 entry.2)

end Frame

end LineLang
