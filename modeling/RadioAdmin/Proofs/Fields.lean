import Mathlib.Data.List.Dedup
import Mathlib.Data.List.Induction
import RadioAdmin.Fields

/-!
# Looking up after a write

What is found under a name, and what a table holds at all, after it has been changed in one
place or entries have been taken out of it. A look-up after entries have been filtered out needs
distinct names: a second entry of a name would come to light. A table made of many pairs is told by
the first and the last pair of each name.
-/
namespace RadioAdmin.Fields

variable {α : Type}

theorem get?_cons_self (name : String) (content : α) (rest : Fields α) :
    get? ((name, content) :: rest) name = some content := if_pos rfl

theorem get?_cons_of_ne {name other : String} (content : α) (rest : Fields α)
    (h : other ≠ name) : get? ((other, content) :: rest) name = get? rest name := if_neg h

theorem mem_of_get? {fields : Fields α} {name : String} {content : α}
    (h : get? fields name = some content) : (name, content) ∈ fields := by
  induction fields with
  | nil => cases h
  | cons pair rest ih =>
    obtain ⟨other, old⟩ := pair
    by_cases ho : other = name
    · subst ho
      rw [get?_cons_self] at h
      obtain rfl := Option.some.inj h
      exact List.mem_cons_self
    · rw [get?_cons_of_ne old rest ho] at h
      exact List.mem_cons_of_mem _ (ih h)

theorem mem_names_of_get? {fields : Fields α} {name : String} {content : α}
    (h : get? fields name = some content) : name ∈ names fields :=
  List.mem_map_of_mem (mem_of_get? h)

/-- Under distinct names every entry is found under its name. -/
theorem get?_of_mem {fields : Fields α} {name : String} {content : α} (hd : Distinct fields)
    (h : (name, content) ∈ fields) : get? fields name = some content := by
  induction fields with
  | nil => cases h
  | cons pair rest ih =>
    obtain ⟨other, old⟩ := pair
    obtain ⟨hnew, hrest⟩ := List.nodup_cons.mp hd
    rcases List.mem_cons.mp h with heq | hmem
    · cases heq
      exact get?_cons_self name content rest
    · have hname : name ∈ names rest := List.mem_map_of_mem hmem
      have hne : other ≠ name := fun he => hnew (he ▸ hname)
      rw [get?_cons_of_ne old rest hne]
      exact ih hrest hmem

theorem get?_eq_none_of_notMem {fields : Fields α} {name : String} (h : name ∉ names fields) :
    get? fields name = none := by
  rw [Option.eq_none_iff_forall_ne_some]
  exact fun content hget => h (mem_names_of_get? hget)

theorem has_iff {fields : Fields α} {name : String} :
    has fields name = true ↔ name ∈ names fields := by
  constructor
  · intro h
    obtain ⟨content, hget⟩ := Option.isSome_iff_exists.mp h
    exact mem_names_of_get? hget
  · intro h
    induction fields with
    | nil => cases h
    | cons pair rest ih =>
      obtain ⟨other, content⟩ := pair
      rw [has]
      by_cases ho : other = name
      · subst ho
        rw [get?_cons_self, Option.isSome_some]
      · rw [get?_cons_of_ne content rest ho]
        exact ih ((List.mem_cons.mp h).resolve_left (Ne.symm ho))

theorem get?_modify (fields : Fields α) (name other : String) (change : α → α) :
    get? (modify fields name change) other =
      if name = other then (get? fields other).map change else get? fields other := by
  induction fields with
  | nil => simp [modify, get?]
  | cons pair rest ih =>
    obtain ⟨key, old⟩ := pair
    rw [modify]
    by_cases hk : key = name
    · subst hk
      rw [if_pos rfl]
      by_cases ho : key = other
      · subst ho
        rw [get?_cons_self, get?_cons_self, if_pos rfl, Option.map_some]
      · rw [get?_cons_of_ne _ rest ho, get?_cons_of_ne old rest ho, if_neg ho]
    · rw [if_neg hk]
      by_cases ho : key = other
      · subst ho
        rw [get?_cons_self, get?_cons_self, if_neg (Ne.symm hk)]
      · rw [get?_cons_of_ne _ _ ho, get?_cons_of_ne old rest ho, ih]

theorem has_eq_false_iff {fields : Fields α} {name : String} :
    has fields name = false ↔ name ∉ names fields := by
  rw [← Bool.not_eq_true, has_iff]

theorem insert_ne_nil (fields : Fields α) (name : String) (content : α) :
    insert fields name content ≠ [] := by
  cases fields with
  | nil => exact List.cons_ne_nil _ _
  | cons pair rest =>
    rw [insert]
    split <;> exact List.cons_ne_nil _ _

/-- A new name goes to the end. -/
theorem insert_of_notMem {fields : Fields α} {name : String} (content : α)
    (h : name ∉ names fields) : insert fields name content = fields ++ [(name, content)] := by
  induction fields with
  | nil => rfl
  | cons pair rest ih =>
    obtain ⟨other, old⟩ := pair
    have hne : other ≠ name := fun he => h (he ▸ List.mem_cons_self)
    have hrest : name ∉ names rest := fun hmem => h (List.mem_cons_of_mem _ hmem)
    rw [insert, if_neg hne, ih hrest, List.cons_append]

theorem modify_eq_self {fields : Fields α} {name : String} {content : α} {change : α → α}
    (hget : get? fields name = some content) (hsame : change content = content) :
    modify fields name change = fields := by
  induction fields with
  | nil => rfl
  | cons pair rest ih =>
    obtain ⟨other, old⟩ := pair
    rw [modify]
    by_cases ho : other = name
    · subst ho
      rw [get?_cons_self] at hget
      obtain rfl := Option.some.inj hget
      rw [if_pos rfl, hsame]
    · rw [get?_cons_of_ne old rest ho] at hget
      rw [if_neg ho, ih hget]

theorem modify_cons_self (name : String) (content : α) (rest : Fields α) (change : α → α) :
    modify ((name, content) :: rest) name change = (name, change content) :: rest := if_pos rfl

theorem modify_cons_of_ne {name other : String} (content : α) (rest : Fields α) (change : α → α)
    (h : other ≠ name) :
    modify ((other, content) :: rest) name change = (other, content) :: modify rest name change :=
  if_neg h

/-- A change counts by what it does to the content that is there. -/
theorem modify_congr {fields : Fields α} {name : String} {content : α} {change other : α → α}
    (hget : get? fields name = some content) (hsame : change content = other content) :
    modify fields name change = modify fields name other := by
  induction fields with
  | nil => rfl
  | cons pair rest ih =>
    obtain ⟨key, old⟩ := pair
    by_cases hk : key = name
    · subst hk
      rw [get?_cons_self] at hget
      obtain rfl := Option.some.inj hget
      rw [modify_cons_self, modify_cons_self, hsame]
    · rw [get?_cons_of_ne old rest hk] at hget
      rw [modify_cons_of_ne old rest _ hk, modify_cons_of_ne old rest _ hk, ih hget]

theorem modify_of_get?_eq_none {fields : Fields α} {name : String} (change : α → α)
    (h : get? fields name = none) : modify fields name change = fields := by
  induction fields with
  | nil => rfl
  | cons pair rest ih =>
    obtain ⟨other, content⟩ := pair
    have hne : other ≠ name := by
      rintro rfl
      rw [get?_cons_self] at h
      cases h
    rw [get?_cons_of_ne content rest hne] at h
    rw [modify_cons_of_ne content rest change hne, ih h]

theorem modify_modify (fields : Fields α) (name : String) (first second : α → α) :
    modify (modify fields name first) name second =
      modify fields name fun content => second (first content) := by
  induction fields with
  | nil => rfl
  | cons pair rest ih =>
    obtain ⟨key, old⟩ := pair
    by_cases hk : key = name
    · subst hk
      rw [modify_cons_self, modify_cons_self, modify_cons_self]
    · rw [modify_cons_of_ne old rest _ hk, modify_cons_of_ne old _ _ hk,
        modify_cons_of_ne old rest _ hk, ih]

/-- Changes under two names can be made in either order. -/
theorem modify_comm (fields : Fields α) {name other : String} (h : name ≠ other)
    (first second : α → α) :
    modify (modify fields name first) other second =
      modify (modify fields other second) name first := by
  induction fields with
  | nil => rfl
  | cons pair rest ih =>
    obtain ⟨key, old⟩ := pair
    by_cases hk : key = name
    · subst hk
      rw [modify_cons_self, modify_cons_of_ne _ rest _ h, modify_cons_of_ne old rest _ h,
        modify_cons_self]
    · rw [modify_cons_of_ne old rest _ hk]
      by_cases ho : key = other
      · subst ho
        rw [modify_cons_self, modify_cons_self, modify_cons_of_ne _ rest _ hk]
      · rw [modify_cons_of_ne old _ _ ho, modify_cons_of_ne old rest _ ho,
          modify_cons_of_ne old _ _ hk, ih]

/-- An entry taken out leaves its name without content, since no second entry has it. -/
theorem get?_filter {fields : Fields α} (hd : Distinct fields) (keep : String × α → Bool)
    (name : String) :
    get? (fields.filter keep) name =
      (get? fields name).filter fun content => keep (name, content) := by
  induction fields with
  | nil => rfl
  | cons pair rest ih =>
    obtain ⟨key, content⟩ := pair
    obtain ⟨hnew, hrest⟩ := List.nodup_cons.mp hd
    rw [List.filter_cons]
    by_cases hk : key = name
    · subst hk
      rw [get?_cons_self, Option.filter_some]
      split
      · rw [get?_cons_self]
      · rw [ih hrest, get?_eq_none_of_notMem hnew, Option.filter_none]
    · rw [get?_cons_of_ne content rest hk, ← ih hrest]
      split
      · rw [get?_cons_of_ne content _ hk]
      · rfl

theorem distinct_modify {fields : Fields α} (name : String) (change : α → α)
    (h : Distinct fields) : Distinct (modify fields name change) := by
  rw [Distinct, names_modify]
  exact h

theorem distinct_filter {fields : Fields α} (keep : String × α → Bool) (h : Distinct fields) :
    Distinct (fields.filter keep) :=
  (List.filter_sublist.map Prod.fst).nodup h

theorem get?_erase_of_ne (fields : Fields α) {name other : String} (h : name ≠ other) :
    get? (erase fields name) other = get? fields other := by
  induction fields with
  | nil => rfl
  | cons pair rest ih =>
    obtain ⟨key, content⟩ := pair
    rw [erase]
    by_cases hk : key = name
    · subst hk
      rw [if_pos rfl, get?_cons_of_ne content rest h]
    · rw [if_neg hk, get?, get?, ih]

theorem names_erase (fields : Fields α) (name : String) :
    names (erase fields name) = (names fields).erase name := by
  induction fields with
  | nil => rfl
  | cons pair rest ih =>
    obtain ⟨key, content⟩ := pair
    rw [erase]
    by_cases hk : key = name
    · subst hk
      rw [if_pos rfl]
      exact (List.erase_cons_head ..).symm
    · rw [if_neg hk]
      exact (congrArg (key :: ·) ih).trans (List.erase_cons_tail (by simpa using hk)).symm

/-- A name that is taken out is gone, since no second entry has it. -/
theorem notMem_names_erase {fields : Fields α} (name : String) (hd : Distinct fields) :
    name ∉ names (erase fields name) := by
  rw [names_erase]
  exact List.Nodup.not_mem_erase hd

theorem erase_of_get?_eq_none {fields : Fields α} {name : String}
    (h : get? fields name = none) : erase fields name = fields := by
  induction fields with
  | nil => rfl
  | cons pair rest ih =>
    obtain ⟨other, content⟩ := pair
    have hne : other ≠ name := by
      rintro rfl
      rw [get?_cons_self] at h
      cases h
    rw [get?_cons_of_ne content rest hne] at h
    rw [erase, if_neg hne, ih h]

theorem mem_contents_cons {key : String} {old x : α} (rest : Fields α) :
    x ∈ contents ((key, old) :: rest) ↔ x = old ∨ x ∈ contents rest := List.mem_cons

/-- The contents are the one under a name and those that are left without the name. -/
theorem mem_contents_iff (fields : Fields α) (name : String) (x : α) :
    x ∈ contents fields ↔ get? fields name = some x ∨ x ∈ contents (erase fields name) := by
  induction fields with
  | nil => simp [contents, get?, erase]
  | cons pair rest ih =>
    obtain ⟨key, old⟩ := pair
    rw [mem_contents_cons, erase]
    by_cases hk : key = name
    · subst hk
      rw [if_pos rfl, get?_cons_self, Option.some_inj, eq_comm]
    · rw [if_neg hk, get?_cons_of_ne old rest hk, mem_contents_cons, ih, or_left_comm]

theorem mem_contents_insert (fields : Fields α) (name : String) (content x : α) :
    x ∈ contents (insert fields name content) ↔
      x = content ∨ x ∈ contents (erase fields name) := by
  induction fields with
  | nil => exact mem_contents_cons []
  | cons pair rest ih =>
    obtain ⟨key, old⟩ := pair
    rw [insert, erase]
    by_cases hk : key = name
    · rw [if_pos hk, if_pos hk, mem_contents_cons]
    · rw [if_neg hk, if_neg hk, mem_contents_cons, mem_contents_cons, ih, or_left_comm]

theorem mem_contents_modify (fields : Fields α) (name : String) (change : α → α) (x : α) :
    x ∈ contents (modify fields name change) ↔
      (∃ old, get? fields name = some old ∧ x = change old) ∨
        x ∈ contents (erase fields name) := by
  induction fields with
  | nil => simp [contents, get?, modify, erase]
  | cons pair rest ih =>
    obtain ⟨key, old⟩ := pair
    rw [modify, erase]
    by_cases hk : key = name
    · subst hk
      rw [if_pos rfl, if_pos rfl, mem_contents_cons, get?_cons_self]
      simp only [Option.some_inj, exists_eq_left']
    · rw [if_neg hk, if_neg hk, mem_contents_cons, mem_contents_cons, ih,
        get?_cons_of_ne old rest hk, or_left_comm]

theorem ofPairs_concat (pairs : List (String × α)) (pair : String × α) :
    ofPairs (pairs ++ [pair]) = insert (ofPairs pairs) pair.1 pair.2 := List.foldl_append

/-- The names stand in the order of their first pairs. -/
theorem names_ofPairs (pairs : List (String × α)) :
    names (ofPairs pairs) = (pairs.map Prod.fst).eraseDups := by
  induction pairs using List.reverseRecOn with
  | nil => exact List.eraseDups_nil.symm
  | append_singleton pairs pair ih =>
    rw [ofPairs_concat, names_insert, ih, List.map_append, List.map_singleton,
      List.eraseDups_append]
    by_cases hold : pair.1 ∈ pairs.map Prod.fst
    · have hnothing : [pair.1].removeAll (pairs.map Prod.fst) = [] := by
        simpa [List.removeAll] using hold
      rw [if_pos (List.mem_eraseDups.mpr hold), hnothing, List.eraseDups_nil, List.append_nil]
    · have hnew : [pair.1].removeAll (pairs.map Prod.fst) = [pair.1] := by
        simpa [List.removeAll] using hold
      rw [if_neg (mt List.mem_eraseDups.mp hold), hnew, List.eraseDups_cons, List.filter_nil,
        List.eraseDups_nil]

/-- A name has the content of its last pair. -/
theorem exists_last_of_get?_ofPairs {pairs : List (String × α)} {name : String} {content : α}
    (h : get? (ofPairs pairs) name = some content) :
    ∃ before after, pairs = before ++ (name, content) :: after ∧ name ∉ after.map Prod.fst := by
  induction pairs using List.reverseRecOn with
  | nil => cases h
  | append_singleton pairs pair ih =>
    rw [ofPairs_concat, get?_insert] at h
    split at h
    · rename_i hname
      obtain rfl := Option.some.inj h
      subst hname
      exact ⟨pairs, [], rfl, List.not_mem_nil⟩
    · rename_i hname
      obtain ⟨before, after, rfl, hafter⟩ := ih h
      refine ⟨before, after ++ [pair], List.append_assoc .., ?_⟩
      rw [List.map_append, List.mem_append, List.map_singleton, List.mem_singleton]
      exact fun hmem => hmem.elim hafter (Ne.symm hname)

theorem ofPairs_of_nodup {pairs : List (String × α)} (h : (pairs.map Prod.fst).Nodup) :
    ofPairs pairs = pairs := by
  induction pairs using List.reverseRecOn with
  | nil => rfl
  | append_singleton pairs pair ih =>
    rw [List.map_append, List.nodup_append] at h
    have hnew : pair.1 ∉ names pairs := fun hmem => h.2.2 _ hmem _ List.mem_cons_self rfl
    rw [ofPairs_concat, ih h.1, insert_of_notMem _ hnew]

/-- No pair is lost exactly if no name is repeated. -/
theorem length_ofPairs_eq_iff (pairs : List (String × α)) :
    (ofPairs pairs).length = pairs.length ↔ (pairs.map Prod.fst).Nodup := by
  constructor
  · intro hlength
    have hperm : (names (ofPairs pairs)).Perm (pairs.map Prod.fst).dedup := by
      refine (List.perm_ext_iff_of_nodup (distinct_ofPairs pairs) (List.nodup_dedup _)).mpr ?_
      intro name
      rw [names_ofPairs, List.mem_eraseDups, List.mem_dedup]
    rw [← List.dedup_eq_self]
    refine (List.dedup_sublist _).eq_of_length ?_
    rw [← hperm.length_eq, names, List.length_map, hlength, List.length_map]
  · exact fun h => by rw [ofPairs_of_nodup h]

end RadioAdmin.Fields
