import RadioAdmin.Proofs.Value.Basic

/-!
# Positions in nested maps

A path of keys leads from a map through the maps below it. A position of two maps is a path
that stays inside maps on both sides until its last key, which the expected side has. The
keys of a map give the paths through it their depth-first order.
-/
namespace RadioAdmin

namespace Value

/-- What a value holds at the end of a path of keys through maps. -/
def at? : Value → List String → Option Value
  | value, [] => some value
  | value, key :: keys => (value.get? key).bind fun below => below.at? keys

theorem at?_cons {fields : List (String × Value)} {key : String} {below : Value}
    (h : Fields.get? fields key = some below) (keys : List String) :
    (map fields).at? (key :: keys) = below.at? keys := by
  rw [at?, get?, h, Option.bind_some]

theorem exists_of_at?_cons {fields : List (String × Value)} {key : String} {keys : List String}
    {found : Value} (h : (map fields).at? (key :: keys) = some found) :
    ∃ below, Fields.get? fields key = some below ∧ below.at? keys = some found :=
  Option.bind_eq_some_iff.mp h

/-- Only a set map leads on. -/
theorem exists_map_of_at?_cons {whole found : Value} {key : String} {keys : List String}
    (h : whole.at? (key :: keys) = some found) : ∃ fields, whole = map fields ∧ fields ≠ [] := by
  cases whole with
  | map fields =>
    refine ⟨fields, rfl, ?_⟩
    rintro rfl
    cases h
  | _ => cases h

/-- What leads to something that is set is set. -/
theorem isEmpty_of_at? {whole found : Value} {keys : List String}
    (h : whole.at? keys = some found) (hset : found.isEmpty = false) : whole.isEmpty = false := by
  cases keys with
  | nil =>
    obtain rfl := Option.some.inj h
    exact hset
  | cons key keys =>
    obtain ⟨fields, rfl, hfields⟩ := exists_map_of_at?_cons h
    exact isEmpty_map hfields

theorem at?_append {value found : Value} {front : List String}
    (h : value.at? front = some found) (back : List String) :
    value.at? (front ++ back) = found.at? back := by
  induction front generalizing value with
  | nil =>
    obtain rfl := Option.some.inj h
    rfl
  | cons key front ih =>
    obtain ⟨below, hget, hat⟩ := Option.bind_eq_some_iff.mp h
    rw [List.cons_append, at?, hget, Option.bind_some, ih hat]

/-- A path of keys that both sides follow through maps up to its last key, which the
expected side has. -/
structure IsPosition (expected actual : Value) (keys : List String) : Prop where
  nonempty : keys ≠ []
  maps : ∀ front, front <+: keys → front ≠ keys →
    (∃ a, expected.at? front = some (map a)) ∧ ∃ b, actual.at? front = some (map b)
  present : ∃ found, expected.at? keys = some found

/-- A position is a key of the expected map, or lies below a key that holds a map on both
sides. -/
theorem isPosition_cons_iff (expected actual : List (String × Value)) (key : String)
    (keys : List String) :
    IsPosition (map expected) (map actual) (key :: keys) ↔
      ∃ found, Fields.get? expected key = some found ∧ (keys = [] ∨
        ∃ a b, found = map a ∧ Fields.get? actual key = some (map b) ∧
          IsPosition (map a) (map b) keys) := by
  constructor
  · intro h
    obtain ⟨last, hlast⟩ := h.present
    obtain ⟨found, hfound, hbelow⟩ := exists_of_at?_cons hlast
    refine ⟨found, hfound, ?_⟩
    by_cases hk : keys = []
    · exact Or.inl hk
    right
    obtain ⟨⟨a, ha⟩, b, hb⟩ := h.maps [key] (by simp) (by simpa using Ne.symm hk)
    rw [at?_cons hfound] at ha
    obtain rfl := Option.some.inj ha
    obtain ⟨other, hother, hmap⟩ := exists_of_at?_cons hb
    obtain rfl := Option.some.inj hmap
    refine ⟨a, b, rfl, hother, hk, ?_, last, hbelow⟩
    intro front hfront hne
    have hm := h.maps (key :: front) (List.cons_prefix_cons.mpr ⟨rfl, hfront⟩) (by simpa using hne)
    rwa [at?_cons hfound, at?_cons hother] at hm
  · rintro ⟨found, hfound, hk⟩
    refine ⟨List.cons_ne_nil _ _, ?_, ?_⟩
    · intro front hfront hne
      cases front with
      | nil => exact ⟨⟨expected, rfl⟩, actual, rfl⟩
      | cons first front =>
        obtain ⟨rfl, hshort⟩ := List.cons_prefix_cons.mp hfront
        have hne' : front ≠ keys := by simpa using hne
        rcases hk with rfl | ⟨a, b, rfl, hother, hpos⟩
        · exact absurd (List.prefix_nil.mp hshort) hne'
        · rw [at?_cons hfound, at?_cons hother]
          exact hpos.maps front hshort hne'
    · rw [at?_cons hfound]
      rcases hk with rfl | ⟨a, b, rfl, hother, hpos⟩
      · exact ⟨found, rfl⟩
      · exact hpos.present

/-- The depth-first order of paths through a map: where two of them part, the map that they
have reached lists the key of the first before the key of the second. -/
def Precedes (value : Value) (first second : List String) : Prop :=
  ∃ front a as b bs fields, first = front ++ a :: as ∧ second = front ++ b :: bs ∧
    value.at? front = some (map fields) ∧ [a, b].Sublist (Fields.names fields)

theorem wellFormed_of_get? {fields : List (String × Value)} {key : String} {found : Value}
    (hw : WellFormedFields fields) (h : Fields.get? fields key = some found) :
    WellFormed found := by
  induction fields with
  | nil => cases h
  | cons pair rest ih =>
    obtain ⟨other, content⟩ := pair
    by_cases ho : other = key
    · subst ho
      rw [Fields.get?_cons_self] at h
      exact Option.some.inj h ▸ hw.1
    · rw [Fields.get?_cons_of_ne content rest ho] at h
      exact ih hw.2 h

theorem wellFormed_of_at? {value found : Value} {keys : List String} (hw : WellFormed value)
    (h : value.at? keys = some found) : WellFormed found := by
  induction keys generalizing value with
  | nil => exact Option.some.inj h ▸ hw
  | cons key keys ih =>
    cases value with
    | map fields =>
      obtain ⟨below, hget, hat⟩ := exists_of_at?_cons h
      exact ih (wellFormed_of_get? hw.2 hget) hat
    | _ => cases h

theorem Precedes.ne {value : Value} {first second : List String} (hw : WellFormed value)
    (h : Precedes value first second) : first ≠ second := by
  obtain ⟨front, a, as, b, bs, fields, rfl, rfl, hat, hsub⟩ := h
  intro he
  obtain ⟨rfl, -⟩ := List.cons.inj (List.append_cancel_left he)
  have hnodup := hsub.nodup (wellFormed_of_at? hw hat).1
  simp at hnodup

theorem Precedes.below {fields inner : List (String × Value)} {key : String}
    {first second : List String} (hget : Fields.get? fields key = some (map inner))
    (h : Precedes (map inner) first second) :
    Precedes (map fields) (key :: first) (key :: second) := by
  obtain ⟨front, a, as, b, bs, names, rfl, rfl, hat, hsub⟩ := h
  exact ⟨key :: front, a, as, b, bs, names, rfl, rfl, by rw [at?_cons hget, hat], hsub⟩

/-- A path that begins with a key goes before those that begin with later keys. -/
theorem precedes_cons {key other : String} {found : Value} {rest : List (String × Value)}
    (keys others : List String) (h : other ∈ Fields.names rest) :
    Precedes (map ((key, found) :: rest)) (key :: keys) (other :: others) :=
  ⟨[], key, keys, other, others, _, rfl, rfl, rfl,
    (List.singleton_sublist.mpr h).cons_cons key⟩

/-- An entry in front changes nothing for the paths through the others. -/
theorem Precedes.cons {key : String} {found : Value} {rest : List (String × Value)}
    {first second : List String} (hnew : key ∉ Fields.names rest)
    (h : Precedes (map rest) first second) :
    Precedes (map ((key, found) :: rest)) first second := by
  obtain ⟨front, a, as, b, bs, fields, rfl, rfl, hat, hsub⟩ := h
  cases front with
  | nil =>
    obtain rfl := Value.map.inj (Option.some.inj hat)
    exact ⟨[], a, as, b, bs, _, rfl, rfl, rfl, hsub.cons key⟩
  | cons name front =>
    obtain ⟨below, hget, hbelow⟩ := exists_of_at?_cons hat
    have hne : key ≠ name := fun he => hnew (he ▸ Fields.mem_names_of_get? hget)
    refine ⟨name :: front, a, as, b, bs, fields, rfl, rfl, ?_, hsub⟩
    rw [at?_cons (by rw [Fields.get?_cons_of_ne found rest hne, hget]), hbelow]

end Value

end RadioAdmin
