import Mathlib.Data.List.Nodup
import LineLang.Frame
import LineLang.Proofs.Text.Order

/-! Frames as maps.

A sorted frame lists a map: each name once, with what is found under it. There is one such list for a map, so two
sorted frames are equal as soon as the same is found in both, whatever was put into them and in which order.
-/

set_option autoImplicit false

namespace LineLang

/-- The entries are those of the map, each name once, in the order of the bytes of the names. -/
structure Lists {α : Type} (entries : List (String × α)) (get? : String → Option α) : Prop where
  ordered : (entries.map fun entry => Text.bytes entry.1).Pairwise (· < ·)
  mem_iff : ∀ name value, (name, value) ∈ entries ↔ get? name = some value

namespace Frame

variable {α : Type} {frame other : Frame α}

theorem sorted_empty : (empty : Frame α).Sorted :=
  List.Pairwise.nil

theorem Sorted.nodup (sorted : frame.Sorted) : frame.names.Nodup :=
  List.Pairwise.imp (fun less => Std.ne_of_lt less) sorted

theorem lookup_eq_some_iff_mem {entries : List (String × α)} (nodup : (entries.map Prod.fst).Nodup)
    {name : String} {value : α} : entries.lookup name = some value ↔ (name, value) ∈ entries := by
  induction entries with
  | nil => simp
  | cons entry rest ih =>
    obtain ⟨key, held⟩ := entry
    rw [List.map_cons, List.nodup_cons] at nodup
    rw [lookup_cons, List.mem_cons, Prod.mk.injEq]
    split
    next same =>
      subst same
      have absent : (name, value) ∉ rest := fun isOne => nodup.1 (List.mem_map.mpr ⟨_, isOne, rfl⟩)
      simp [absent, eq_comm]
    next different => simp [different, ih nodup.2]

theorem Sorted.lists (sorted : frame.Sorted) : Lists frame.entries frame.get? := by
  refine ⟨?_, fun name value => (lookup_eq_some_iff_mem sorted.nodup).symm⟩
  have ordered := List.Pairwise.map Text.bytes (fun _ _ => Text.bytes_lt) sorted
  rwa [names, List.map_map] at ordered

/-- A map has one list. -/
theorem Sorted.ext (sorted : frame.Sorted) (alsoSorted : other.Sorted)
    (same : ∀ name, frame.get? name = other.get? name) : frame = other := by
  obtain ⟨entries⟩ := frame
  obtain ⟨others⟩ := other
  have nodup : entries.Nodup := List.Nodup.of_map Prod.fst sorted.nodup
  have alsoNodup : others.Nodup := List.Nodup.of_map Prod.fst alsoSorted.nodup
  have perm : entries.Perm others := by
    rw [List.perm_ext_iff_of_nodup nodup alsoNodup]
    rintro ⟨name, value⟩
    rw [sorted.lists.mem_iff, same, alsoSorted.lists.mem_iff]
  refine congrArg Frame.mk (perm.eq_of_pairwise ?_ (List.pairwise_map.mp sorted) (List.pairwise_map.mp alsoSorted))
  intro first second _ _ less more
  exact absurd more (String.lt_asymm less)

/-- Adds the entries whose names the frame does not have yet, from the left. -/
def fill (frame : Frame α) (entries : List (String × α)) : Frame α :=
  entries.foldl (fun frame entry => if entry.1 ∈ frame.names then frame else frame.insert entry.1 entry.2) frame

theorem Sorted.fill (sorted : frame.Sorted) (entries : List (String × α)) : (frame.fill entries).Sorted := by
  induction entries generalizing frame with
  | nil => exact sorted
  | cons entry rest ih =>
    rw [Frame.fill, List.foldl_cons]
    split
    · exact ih sorted
    · exact ih (sorted.insert entry.1 entry.2)

theorem get?_fill (frame : Frame α) (entries : List (String × α)) (name : String) :
    (frame.fill entries).get? name = (frame.get? name).or (entries.lookup name) := by
  induction entries generalizing frame with
  | nil => simp [fill]
  | cons entry rest ih =>
    obtain ⟨key, held⟩ := entry
    rw [fill, List.foldl_cons, lookup_cons]
    split
    next known =>
      obtain ⟨value, found⟩ := (mem_names frame key).mp known
      rw [← fill, ih]
      split
      next same => subst same; simp [found]
      next => rfl
    next unknown =>
      have absent : frame.get? key = none := Option.eq_none_iff_forall_ne_some.mpr fun value found =>
        unknown ((mem_names frame key).mpr ⟨value, found⟩)
      rw [← fill, ih, get?_insert]
      split
      next same => subst same; simp [absent]
      next => rfl

theorem lookup_of_perm {entries : List (String × α)} (sorted : frame.Sorted) (perm : entries.Perm frame.entries)
    (name : String) : entries.lookup name = frame.get? name := by
  have nodup : (entries.map Prod.fst).Nodup := (perm.map Prod.fst).nodup_iff.mpr sorted.nodup
  ext value
  rw [lookup_eq_some_iff_mem nodup, perm.mem_iff]
  exact sorted.lists.mem_iff name value

end Frame

end LineLang
