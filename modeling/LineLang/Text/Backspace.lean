import LineLang.Text.Bytes
import LineLang.Text.Cluster

/-! Backspaces in a typed line. -/

set_option autoImplicit false

namespace LineLang.Text

def backspace : Char := '\x08'

/-- A line as typed so far: its characters from the last to the first, and how many bytes each
backspace to come takes off. -/
structure Typed where
  reversed : List Char := []
  sizes : List Nat := []

/-- The size of a cluster is kept in one byte. Of a cluster of 256 bytes or more a backspace takes
off only what is over a multiple of that. -/
def keptSize (cluster : List Char) : Nat :=
  byteLength cluster % 256

/-- A backspace takes off the last cluster that is still there, or nothing. All else is kept. -/
def Typed.press (typed : Typed) (cluster : List Char) : Typed :=
  if cluster = [backspace] then
    match typed.sizes with
    | [] => typed
    | size :: sizes => ⟨dropBytes size typed.reversed, sizes⟩
  else ⟨cluster.reverse ++ typed.reversed, keptSize cluster :: typed.sizes⟩

def applyBackspaces (line : String) : String :=
  String.ofList ((Cluster.split line.toList).foldl Typed.press {}).reversed.reverse

theorem foldl_press_reversed (clusters : List (List Char)) (typed : Typed)
    (plain : [backspace] ∉ clusters) :
    (clusters.foldl Typed.press typed).reversed.reverse =
      typed.reversed.reverse ++ clusters.flatten := by
  induction clusters generalizing typed with
  | nil => simp
  | cons cluster rest ih =>
    rw [List.mem_cons, not_or] at plain
    rw [List.foldl_cons, ih _ plain.2, Typed.press, if_neg (Ne.symm plain.1)]
    simp

theorem applyBackspaces_of_not_mem {line : String} (plain : backspace ∉ line.toList) :
    applyBackspaces line = line := by
  have noCluster : [backspace] ∉ Cluster.split line.toList := by
    intro member
    apply plain
    rw [← Cluster.flatten_split line.toList]
    exact List.mem_flatten.mpr ⟨[backspace], member, List.mem_singleton_self _⟩
  rw [applyBackspaces, foldl_press_reversed _ _ noCluster, Cluster.flatten_split]
  simp

end LineLang.Text
