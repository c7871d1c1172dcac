/-!
# Named fields in the order of their first naming

A table whose order is visible is a list of name and content pairs. Writing to a
name that is present keeps its place; writing to a new name goes to the end. The
functions below never look at a second entry of one name, and the lemmas say that
none arises.
-/
namespace RadioAdmin

/-- Contents under names, listed in the order in which the names first appeared. -/
abbrev Fields (α : Type) := List (String × α)

namespace Fields

variable {α β : Type}

/-- The content under a name. -/
def get? : Fields α → String → Option α
  | [], _ => none
  | (other, content) :: rest, name => if other = name then some content else get? rest name

/-- Whether a name is present. -/
def has (fields : Fields α) (name : String) : Bool := (get? fields name).isSome

/-- The names in order. -/
def names (fields : Fields α) : List String := fields.map Prod.fst

/-- The contents in order. -/
def contents (fields : Fields α) : List α := fields.map Prod.snd

/-- Put a content under a name, in the place of the name if it is present and at the end if not. -/
def insert : Fields α → String → α → Fields α
  | [], name, content => [(name, content)]
  | (other, old) :: rest, name, content =>
    if other = name then (name, content) :: rest else (other, old) :: insert rest name content

/-- Change the content under a name; a missing name changes nothing. -/
def modify : Fields α → String → (α → α) → Fields α
  | [], _, _ => []
  | (other, old) :: rest, name, change =>
    if other = name then (other, change old) :: rest else (other, old) :: modify rest name change

/-- Take a name out, closing the gap. -/
def erase : Fields α → String → Fields α
  | [], _ => []
  | (other, old) :: rest, name =>
    if other = name then rest else (other, old) :: erase rest name

/-- Insert pairs one after the other: a repeated name keeps its first place and its last content. -/
def ofPairs (pairs : List (String × α)) : Fields α :=
  pairs.foldl (fun fields pair => insert fields pair.1 pair.2) []

/-- No name appears twice. -/
def Distinct (fields : Fields α) : Prop := (names fields).Nodup

theorem get?_insert (fields : Fields α) (name other : String) (content : α) :
    get? (insert fields name content) other =
      if name = other then some content else get? fields other := by
  induction fields with
  | nil => simp [insert, get?]
  | cons pair rest ih =>
    obtain ⟨key, old⟩ := pair
    by_cases hk : key = name
    · subst hk
      by_cases h : key = other <;> simp [insert, get?, h]
    · by_cases h : key = other
      · subst h
        have hn : ¬ name = key := fun he => hk he.symm
        simp [insert, get?, hk, hn]
      · simp [insert, get?, hk, h, ih]

theorem names_insert (fields : Fields α) (name : String) (content : α) :
    names (insert fields name content) =
      if name ∈ names fields then names fields else names fields ++ [name] := by
  induction fields with
  | nil => simp [insert, names]
  | cons pair rest ih =>
    obtain ⟨key, old⟩ := pair
    unfold names at ih ⊢
    by_cases hk : key = name
    · simp [insert, hk]
    · have hk' : ¬ name = key := fun h => hk h.symm
      simp only [insert, if_neg hk, List.map_cons, ih, List.mem_cons, hk', false_or]
      split <;> simp

/-- Writing keeps the names distinct. -/
theorem distinct_insert (fields : Fields α) (name : String) (content : α)
    (h : Distinct fields) : Distinct (insert fields name content) := by
  unfold Distinct at *
  rw [names_insert]
  split
  · exact h
  · rename_i hn
    exact List.nodup_append.mpr ⟨h, by simp, fun a ha b hb => by
      intro he
      simp only [List.mem_singleton] at hb
      exact hn (hb ▸ he ▸ ha)⟩

theorem distinct_ofPairs (pairs : List (String × α)) : Distinct (ofPairs pairs) := by
  suffices h : ∀ fields : Fields α, Distinct fields →
      Distinct (pairs.foldl (fun fields pair => insert fields pair.1 pair.2) fields) from
    h [] (by simp [Distinct, names])
  induction pairs with
  | nil => exact fun _ h => h
  | cons pair rest ih => exact fun fields h => ih _ (distinct_insert fields pair.1 pair.2 h)

theorem names_modify (fields : Fields α) (name : String) (change : α → α) :
    names (modify fields name change) = names fields := by
  induction fields with
  | nil => rfl
  | cons pair rest ih =>
    obtain ⟨key, old⟩ := pair
    unfold names at ih ⊢
    by_cases hk : key = name <;> simp [modify, hk, ih]

end Fields

end RadioAdmin
