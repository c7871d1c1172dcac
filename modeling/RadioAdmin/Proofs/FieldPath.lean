import Mathlib.Data.List.Nodup
import Mathlib.Data.List.TakeWhile
import RadioAdmin.KeyMaterial

/-!
# The segments of a field path

The last segment of a path is a property of its text, and a key that is put below a path
brings its own last segment along, dots inside it included. So whether a path names a key
field depends on its last key alone. All keys of a path can be read back when each of them is
a segment.
-/
namespace RadioAdmin.FieldPath

/-- The path of a list of keys below a path, one after the other. -/
def below (path : String) (keys : List String) : String := keys.foldl child path

theorem below_cons (path key : String) (keys : List String) :
    below path (key :: keys) = below (child path key) keys := rfl

/-- Keys that are all set are joined with dots, behind the path if that is set. -/
theorem below_eq_intercalate (path : String) (keys : List String) (hset : keys ≠ [])
    (hkeys : ∀ key ∈ keys, key ≠ "") :
    below path keys = ".".intercalate (if path = "" then keys else path :: keys) := by
  have hpath : ∀ (keys : List String) (path : String), path ≠ "" →
      below path keys = ".".intercalate (path :: keys) := by
    intro keys
    induction keys with
    | nil => exact fun path _ => String.intercalate_singleton.symm
    | cons key keys ih =>
      intro path hp
      have hchild : child path key = path ++ "." ++ key := if_neg (by simpa using hp)
      rw [below_cons, hchild, ih _ (by simp), String.intercalate_cons_cons]
      cases keys with
      | nil => rw [String.intercalate_singleton, String.intercalate_singleton]
      | cons next keys =>
        rw [String.intercalate_cons_cons, String.intercalate_cons_cons]
        simp only [String.append_assoc]
  by_cases hp : path = ""
  · obtain ⟨key, rest, rfl⟩ := List.exists_cons_of_ne_nil hset
    rw [if_pos hp, hp, below_cons, child_root]
    exact hpath rest key (hkeys key List.mem_cons_self)
  · rw [if_neg hp, hpath keys path hp]

/-- A key that makes one segment of a path: it is set and has no dot in it. -/
def IsSegment (key : String) : Prop := key ≠ "" ∧ '.' ∉ key.toList

instance : DecidablePred IsSegment := fun _ => inferInstanceAs (Decidable (_ ∧ _))

/-- The texts between the dots of a path. -/
def segments (path : String) : List String := (path.toList.splitOn '.').map String.ofList

/-- The keys of a path from the root are its segments. -/
theorem segments_below {keys : List String} (hset : keys ≠ [])
    (hkeys : ∀ key ∈ keys, IsSegment key) : segments (below "" keys) = keys := by
  have hjoined : (below "" keys).toList = ['.'].intercalate (keys.map String.toList) := by
    rw [below_eq_intercalate "" keys hset fun key hkey => (hkeys key hkey).1, if_pos rfl,
      String.toList_intercalate]
    rfl
  have hdots : ∀ chars ∈ keys.map String.toList, '.' ∉ chars := by
    intro chars hchars
    obtain ⟨key, hkey, rfl⟩ := List.mem_map.mp hchars
    exact (hkeys key hkey).2
  rw [segments, hjoined, List.splitOn_intercalate '.' hdots (by simpa using hset), List.map_map]
  exact List.map_id'' (fun key => String.ofList_toList) keys

/-- Different paths of segments have different texts. -/
theorem nodup_map_below {paths : List (List String)} (hnodup : paths.Nodup)
    (h : ∀ path ∈ paths, path ≠ [] ∧ ∀ key ∈ path, IsSegment key) :
    (paths.map (below "")).Nodup := by
  refine List.Nodup.map_on ?_ hnodup
  intro path hpath other hother he
  obtain ⟨hset, hkeys⟩ := h path hpath
  obtain ⟨hset', hkeys'⟩ := h other hother
  rw [← segments_below hset hkeys, he, segments_below hset' hkeys']

theorem leaf_append (path last : String) : leaf (path ++ "." ++ last) = leaf last := by
  have hl : (path ++ "." ++ last).toList.reverse =
      last.toList.reverse ++ '.' :: path.toList.reverse := by
    simp
  unfold leaf
  rw [hl, List.takeWhile_append]
  split
  · rename_i h
    have hall := List.takeWhile_prefix (l := last.toList.reverse) (· ≠ '.')
    rw [hall.eq_of_length h, List.takeWhile_cons_of_neg (by simp), List.append_nil]
  · rfl

/-- A key below a path has the leaf that it has alone. -/
theorem leaf_child (path key : String) : leaf (child path key) = leaf key := by
  unfold child
  split
  · rfl
  · exact leaf_append path key

theorem leaf_eq_self {text : String} (h : '.' ∉ text.toList) : leaf text = text := by
  have ht : text.toList.reverse.takeWhile (· ≠ '.') = text.toList.reverse := by
    apply List.takeWhile_eq_self_iff.mpr
    intro c hc
    have hne : c ≠ '.' := fun he => h (he ▸ List.mem_reverse.mp hc)
    simpa using hne
  rw [leaf, ht, List.reverse_reverse, String.ofList_toList]

/-- A path is its leaf, or ends in a dot and its leaf. -/
theorem eq_leaf_or_append (text : String) :
    text = leaf text ∨ ∃ path, text = path ++ "." ++ leaf text := by
  have hsplit := List.takeWhile_append_dropWhile (p := (· ≠ '.')) (l := text.toList.reverse)
  cases hd : text.toList.reverse.dropWhile (· ≠ '.') with
  | nil =>
    left
    rw [hd, List.append_nil] at hsplit
    rw [leaf, hsplit, List.reverse_reverse, String.ofList_toList]
  | cons dot rest =>
    right
    have hdot : dot = '.' := by
      have h := List.head?_dropWhile_not (· ≠ '.') text.toList.reverse
      rw [hd] at h
      simpa using h
    refine ⟨String.ofList rest.reverse, String.toList_inj.mp ?_⟩
    have hr := congrArg List.reverse hsplit
    rw [hd, hdot, List.reverse_reverse, List.reverse_append, List.reverse_cons] at hr
    have hl : (leaf text).toList = (text.toList.reverse.takeWhile (· ≠ '.')).reverse :=
      String.toList_ofList
    rw [String.toList_append, String.toList_append, String.toList_ofList, hl]
    exact hr.symm

end RadioAdmin.FieldPath

namespace RadioAdmin.KeyMaterial

theorem isKeyField_child (path key : String) :
    isKeyField (FieldPath.child path key) = isKeyField key := by
  rw [isKeyField, FieldPath.leaf_child, isKeyField]

/-- The key fields are those whose name, or whose text after some dot, is one of the
names in any case. -/
theorem isKeyField_iff (field : String) :
    isKeyField field = true ↔ ∃ last, last.toLower ∈ fieldNames ∧
      (field = last ∨ ∃ path, field = path ++ "." ++ last) := by
  have hany : isKeyField field = true ↔ (FieldPath.leaf field).toLower ∈ fieldNames := by
    simp [isKeyField, List.any_eq_true]
  rw [hany]
  constructor
  · intro h
    exact ⟨_, h, FieldPath.eq_leaf_or_append field⟩
  · rintro ⟨last, hlast, hfield⟩
    have hdot : '.' ∉ last.toList := by
      intro hmem
      have hlow : '.' ∈ last.toLower.toList := by
        show '.' ∈ (last.map Char.toLower).toList
        rw [String.toList_map]
        exact List.mem_map.mpr ⟨'.', hmem, by decide⟩
      have hnone : ∀ name ∈ fieldNames, '.' ∉ name.toList := by decide
      exact hnone _ hlast hlow
    have hleaf : FieldPath.leaf field = last := by
      rcases hfield with rfl | ⟨path, rfl⟩
      · exact FieldPath.leaf_eq_self hdot
      · rw [FieldPath.leaf_append, FieldPath.leaf_eq_self hdot]
    rwa [hleaf]

end RadioAdmin.KeyMaterial
