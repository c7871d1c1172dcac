import Mathlib.Data.List.Induction
import RadioAdmin.Proofs.Connection.Link
import RadioAdmin.Startup.Run

/-!
# The order of registration

The roster keeps no moments, only a table in which a new identifier goes to the end. What the order
of the table means is told by the history of the run: an identifier joins when it is added while it
is not registered, and the roster lists its connections by the moments at which their identifiers
joined last. Adding over an identifier and changing a role keep the place; an identifier that has
been taken out joins anew.
-/
namespace RadioAdmin.Roster

/-- The connection that an operation registers. -/
def Op.added? : Op → Option Connection
  | .add connection | .addAndConnect connection => some connection
  | _ => none

/-- An operation registers a connection under an identifier. -/
def Op.Adds (op : Op) (id : String) : Prop :=
  ∃ connection, op.added? = some connection ∧ connection.id = id

/-- The role that an operation gives to the connection under an identifier. -/
def Op.roleFor? (id : String) : Op → Option Role
  | .setRole other role => if other = id then some role else none
  | _ => none

/-- All operations but the registration at startup, which adds many connections in one go. -/
def Op.AddsAtMostOne : Op → Prop
  | .registerAll _ _ => False
  | _ => True

/-- An identifier has been added in a history and not been taken out since. -/
def Registered (ops : List Op) (id : String) : Prop :=
  ∃ front op back, ops = front ++ op :: back ∧ op.Adds id ∧ ∀ later ∈ back, later ≠ .remove id

/-- At a moment of a history an identifier is added while it is not registered. -/
def Joins (ops : List Op) (id : String) (moment : Nat) : Prop :=
  ∃ op, ops[moment]? = some op ∧ op.Adds id ∧ ¬ Registered (ops.take moment) id

/-- The last moment at which an identifier joins. -/
def JoinsLast (ops : List Op) (id : String) (moment : Nat) : Prop :=
  Joins ops id moment ∧ ∀ other, Joins ops id other → other ≤ moment

/-- A connection is the one added last under an identifier, in the role it has been given since. -/
def AddedLast (ops : List Op) (id : String) (connection : Connection) : Prop :=
  ∃ front op back added, ops = front ++ op :: back ∧
    op.added? = some added ∧ added.id = id ∧ (∀ later ∈ back, ¬ later.Adds id) ∧
    connection = { added with role := (back.filterMap (Op.roleFor? id)).getLastD added.role }

variable {ops : List Op} {op : Op} {id : String} {moment : Nat} {connection : Connection}

theorem Op.adds_iff_of_added (h : op.added? = some connection) :
    op.Adds id ↔ connection.id = id := by
  constructor
  · rintro ⟨added, hadded, hid⟩
    obtain rfl := Option.some.inj (h.symm.trans hadded)
    exact hid
  · exact fun hid => ⟨connection, h, hid⟩

theorem Op.not_adds_of_none (h : op.added? = none) : ¬ op.Adds id := by
  rintro ⟨added, hadded, -⟩
  rw [h] at hadded
  cases hadded

theorem Op.roleFor?_of_added (h : op.added? = some connection) (id : String) :
    op.roleFor? id = none := by
  cases op with
  | setRole other role => cases h
  | _ => rfl

theorem registered_concat :
    Registered (ops ++ [op]) id ↔ op.Adds id ∨ Registered ops id ∧ op ≠ .remove id := by
  constructor
  · rintro ⟨front, adding, back, hsplit, hadds, hkept⟩
    rcases List.eq_nil_or_concat back with rfl | ⟨back, last, rfl⟩
    · obtain ⟨-, hlast⟩ := List.append_inj' hsplit rfl
      obtain rfl := List.singleton_inj.mp hlast
      exact .inl hadds
    · rw [List.concat_eq_append] at hsplit hkept
      rw [← List.cons_append, ← List.append_assoc] at hsplit
      obtain ⟨rfl, hlast⟩ := List.append_inj' hsplit rfl
      obtain rfl := List.singleton_inj.mp hlast
      rw [List.forall_mem_append, List.forall_mem_singleton] at hkept
      exact .inr ⟨⟨front, adding, back, rfl, hadds, hkept.1⟩, hkept.2⟩
  · rintro (hadds | ⟨⟨front, adding, back, rfl, hadds, hkept⟩, hlast⟩)
    · exact ⟨ops, op, [], rfl, hadds, fun _ hmem => absurd hmem List.not_mem_nil⟩
    · refine ⟨front, adding, back ++ [op], List.append_assoc .., hadds, ?_⟩
      rw [List.forall_mem_append, List.forall_mem_singleton]
      exact ⟨hkept, hlast⟩

theorem registered_concat_of_added (h : op.added? = some connection) :
    Registered (ops ++ [op]) id ↔ connection.id = id ∨ Registered ops id := by
  have hkeeps : op ≠ .remove id := by
    rintro rfl
    cases h
  rw [registered_concat, Op.adds_iff_of_added h, and_iff_left hkeeps]

theorem registered_concat_of_none (h : op.added? = none) :
    Registered (ops ++ [op]) id ↔ Registered ops id ∧ op ≠ .remove id := by
  rw [registered_concat, or_iff_right (Op.not_adds_of_none h)]

theorem Joins.lt_length (h : Joins ops id moment) : moment < ops.length := by
  obtain ⟨_, hop, -⟩ := h
  exact (List.getElem?_eq_some_iff.mp hop).1

/-- What happens later does not touch the moments of a history. -/
theorem joins_concat :
    Joins (ops ++ [op]) id moment ↔
      Joins ops id moment ∨ moment = ops.length ∧ op.Adds id ∧ ¬ Registered ops id := by
  rcases Nat.lt_trichotomy moment ops.length with hbefore | rfl | hbehind
  · have htake : (ops ++ [op]).take moment = ops.take moment :=
      List.take_append_of_le_length (Nat.le_of_lt hbefore)
    rw [Joins, Joins, htake, List.getElem?_append_left hbefore]
    exact ⟨.inl, fun h => h.resolve_right fun hlast => Nat.ne_of_lt hbefore hlast.1⟩
  · have hno : ¬ Joins ops id ops.length := fun h => Nat.lt_irrefl _ h.lt_length
    rw [Joins, List.getElem?_concat_length, List.take_left' rfl]
    simp [hno]
  · constructor
    · intro h
      have hlt := h.lt_length
      rw [List.length_append, List.length_singleton] at hlt
      omega
    · rintro (h | ⟨rfl, -⟩)
      · exact absurd h.lt_length (Nat.lt_asymm hbehind)
      · exact absurd hbehind (Nat.lt_irrefl _)

/-- An identifier that is added while it is not registered joins last at that moment. -/
theorem joinsLast_of_adds (hadds : op.Adds id) (hnew : ¬ Registered ops id) :
    JoinsLast (ops ++ [op]) id ops.length := by
  refine ⟨joins_concat.mpr (.inr ⟨rfl, hadds, hnew⟩), fun other h => ?_⟩
  rcases joins_concat.mp h with hbefore | ⟨rfl, -⟩
  · exact Nat.le_of_lt hbefore.lt_length
  · exact Nat.le_refl _

/-- Adding over an identifier is no joining. -/
theorem JoinsLast.concat (h : JoinsLast ops id moment) (hold : op.Adds id → Registered ops id) :
    JoinsLast (ops ++ [op]) id moment := by
  refine ⟨joins_concat.mpr (.inl h.1), fun other hother => ?_⟩
  rcases joins_concat.mp hother with hbefore | ⟨-, hadds, hnew⟩
  · exact h.2 other hbefore
  · exact absurd (hold hadds) hnew

theorem addedLast_of_added (h : op.added? = some connection) :
    AddedLast (ops ++ [op]) connection.id connection :=
  ⟨ops, op, [], connection, rfl, h, rfl, fun _ hmem => absurd hmem List.not_mem_nil, rfl⟩

/-- Until the next adding an operation can only give another role. -/
theorem AddedLast.concat (h : AddedLast ops id connection) (hadds : ¬ op.Adds id) :
    AddedLast (ops ++ [op]) id
      { connection with role := (op.roleFor? id).getD connection.role } := by
  obtain ⟨front, adding, back, added, rfl, hadded, hid, hlater, rfl⟩ := h
  refine ⟨front, adding, back ++ [op], added, List.append_assoc .., hadded, hid, ?_, ?_⟩
  · rw [List.forall_mem_append, List.forall_mem_singleton]
    exact ⟨hlater, hadds⟩
  · rw [List.filterMap_append]
    cases hrole : op.roleFor? id with
    | none => rw [List.filterMap_cons_none hrole, List.filterMap_nil, List.append_nil]; rfl
    | some role =>
      rw [List.filterMap_cons_some hrole, List.filterMap_nil, List.getLastD_concat]
      rfl

theorem AddedLast.concat_of_no_role (h : AddedLast ops id connection) (hadds : ¬ op.Adds id)
    (hrole : op.roleFor? id = none) : AddedLast (ops ++ [op]) id connection := by
  have hconcat := h.concat hadds
  rw [hrole] at hconcat
  exact hconcat

theorem entries_add (roster : Roster) (connection : Connection) :
    (roster.add connection).entries = Fields.insert roster.entries connection.id connection := by
  rw [add_eq]

theorem entries_addAndConnect (roster : Roster) (connection : Connection) :
    (roster.addAndConnect connection).1.entries =
      Fields.insert roster.entries connection.id connection := by
  rw [← entries_add, addAndConnect]
  split <;> rfl

theorem entries_remove (roster : Roster) (id : String) :
    (roster.remove id).1.entries = Fields.erase roster.entries id := by
  rw [remove_eq]

theorem entries_setRole (roster : Roster) (id : String) (role : Role) :
    (roster.setRole id role).1.entries =
      Fields.modify roster.entries id fun connection => { connection with role := role } := by
  rw [setRole]
  split
  · rfl
  · rename_i hhas
    rw [Bool.not_eq_true, Fields.has_eq_false_iff] at hhas
    exact (Fields.modify_of_get?_eq_none _ (Fields.get?_eq_none_of_notMem hhas)).symm

/-- A table is that of a history, with the moments at which its identifiers joined last. -/
structure Shows (entries : Fields Connection) (ops : List Op) (joined : String → Nat) : Prop where
  registered : ∀ id, id ∈ Fields.names entries ↔ Registered ops id
  addedLast : ∀ id connection, Fields.get? entries id = some connection →
    connection.id = id ∧ AddedLast ops id connection
  joinsLast : ∀ id ∈ Fields.names entries, JoinsLast ops id (joined id)
  ordered : (Fields.names entries).Pairwise fun first second => joined first < joined second

namespace Shows

variable {entries : Fields Connection} {joined : String → Nat}

theorem distinct (h : Shows entries ops joined) : Fields.Distinct entries :=
  h.ordered.imp fun hlt he => Nat.ne_of_lt hlt (congrArg joined he)

/-- The connections under other identifiers are as before. -/
theorem addedLast_insert (h : Shows entries ops joined) (hadded : op.added? = some connection)
    {found : Connection}
    (hfound : Fields.get? (Fields.insert entries connection.id connection) id = some found) :
    found.id = id ∧ AddedLast (ops ++ [op]) id found := by
  rw [Fields.get?_insert] at hfound
  split at hfound
  · rename_i hid
    obtain rfl := Option.some.inj hfound
    exact ⟨hid, hid ▸ addedLast_of_added hadded⟩
  · rename_i hid
    obtain ⟨hkey, hlast⟩ := h.addedLast id found hfound
    refine ⟨hkey, hlast.concat_of_no_role ?_ (Op.roleFor?_of_added hadded id)⟩
    rwa [Op.adds_iff_of_added hadded]

/-- A connection that is added over another keeps its place. -/
theorem insert_over (h : Shows entries ops joined) (hadded : op.added? = some connection)
    (hold : connection.id ∈ Fields.names entries) :
    Shows (Fields.insert entries connection.id connection) (ops ++ [op]) joined := by
  have hnames := (Fields.names_insert entries connection.id connection).trans (if_pos hold)
  have hregistered : ∀ id, op.Adds id → Registered ops id := by
    intro id hadds
    rw [Op.adds_iff_of_added hadded] at hadds
    exact hadds ▸ (h.registered connection.id).mp hold
  refine ⟨fun id => ?_, fun id found => h.addedLast_insert hadded, fun id hid => ?_,
    hnames ▸ h.ordered⟩
  · rw [hnames, h.registered, registered_concat_of_added hadded, or_iff_right_of_imp]
    rintro rfl
    exact (h.registered _).mp hold
  · rw [hnames] at hid
    exact (h.joinsLast id hid).concat (hregistered id)

/-- A connection that is added under a new identifier goes to the end. -/
theorem insert_new (h : Shows entries ops joined) (hadded : op.added? = some connection)
    (hnew : connection.id ∉ Fields.names entries) :
    Shows (Fields.insert entries connection.id connection) (ops ++ [op])
      (fun id => if id = connection.id then ops.length else joined id) := by
  have hnames := (Fields.names_insert entries connection.id connection).trans (if_neg hnew)
  have hadds : op.Adds connection.id := (Op.adds_iff_of_added hadded).mpr rfl
  have hother : ∀ id ∈ Fields.names entries, id ≠ connection.id := fun id hid he => hnew (he ▸ hid)
  refine ⟨fun id => ?_, fun id found => h.addedLast_insert hadded, fun id hid => ?_, ?_⟩
  · rw [hnames, List.mem_append, List.mem_singleton, h.registered,
      registered_concat_of_added hadded, or_comm, eq_comm]
  · rw [hnames, List.mem_append, List.mem_singleton] at hid
    rcases hid with hid | rfl
    · rw [if_neg (hother id hid)]
      refine (h.joinsLast id hid).concat fun hid' => ?_
      exact absurd ((Op.adds_iff_of_added hadded).mp hid').symm (hother id hid)
    · rw [if_pos rfl]
      exact joinsLast_of_adds hadds fun hreg => hnew ((h.registered _).mpr hreg)
  · rw [hnames, List.pairwise_append]
    refine ⟨h.ordered.imp_of_mem fun hfirst hsecond hlt => ?_, List.pairwise_singleton .., ?_⟩
    · rwa [if_neg (hother _ hfirst), if_neg (hother _ hsecond)]
    · -- every moment of the history lies before its end
      intro first hfirst second hsecond
      obtain rfl := List.mem_singleton.mp hsecond
      rw [if_neg (hother first hfirst), if_pos rfl]
      exact (h.joinsLast first hfirst).1.lt_length

/-- An operation that adds nothing, takes nothing out and changes no role leaves no trace. -/
theorem keep (h : Shows entries ops joined) (hadded : op.added? = none)
    (hremove : ∀ id, op ≠ .remove id) (hrole : ∀ id, op.roleFor? id = none) :
    Shows entries (ops ++ [op]) joined := by
  refine ⟨fun id => ?_, fun id found hfound => ?_, fun id hid => ?_, h.ordered⟩
  · rw [h.registered, registered_concat_of_none hadded, and_iff_left (hremove id)]
  · obtain ⟨hkey, hlast⟩ := h.addedLast id found hfound
    exact ⟨hkey, hlast.concat_of_no_role (Op.not_adds_of_none hadded) (hrole id)⟩
  · exact (h.joinsLast id hid).concat fun hadds => absurd hadds (Op.not_adds_of_none hadded)

/-- Another role changes the connection in its place. -/
theorem modify_role (h : Shows entries ops joined) (id : String) (role : Role) :
    Shows (Fields.modify entries id fun connection => { connection with role := role })
      (ops ++ [.setRole id role]) joined := by
  have hnames := Fields.names_modify entries id fun connection => { connection with role := role }
  refine ⟨fun other => ?_, fun other found hfound => ?_, fun other hother => ?_,
    hnames ▸ h.ordered⟩
  · rw [hnames, h.registered, registered_concat_of_none rfl, and_iff_left]
    exact nofun
  · rw [Fields.get?_modify] at hfound
    split at hfound
    · rename_i hid
      obtain ⟨old, hold, rfl⟩ := Option.map_eq_some_iff.mp hfound
      obtain ⟨hkey, hlast⟩ := h.addedLast other old hold
      have hadds : ¬ (Op.setRole id role).Adds other := Op.not_adds_of_none rfl
      have hconcat := hlast.concat hadds
      rw [Op.roleFor?, if_pos hid, Option.getD_some] at hconcat
      exact ⟨hkey, hconcat⟩
    · rename_i hid
      obtain ⟨hkey, hlast⟩ := h.addedLast other found hfound
      exact ⟨hkey, hlast.concat_of_no_role (Op.not_adds_of_none rfl) (if_neg hid)⟩
  · rw [hnames] at hother
    exact (h.joinsLast other hother).concat fun hadds => absurd hadds (Op.not_adds_of_none rfl)

/-- The others stay in their order when a connection is taken out. -/
theorem erase (h : Shows entries ops joined) (id : String) :
    Shows (Fields.erase entries id) (ops ++ [.remove id]) joined := by
  have hmem : ∀ other, other ∈ Fields.names (Fields.erase entries id) ↔
      other ∈ Fields.names entries ∧ id ≠ other := by
    intro other
    rw [Fields.names_erase, List.Nodup.mem_erase_iff h.distinct, and_comm, ne_comm]
  refine ⟨fun other => ?_, fun other found hfound => ?_, fun other hother => ?_, ?_⟩
  · rw [hmem, h.registered, registered_concat_of_none rfl]
    simp
  · have hid : id ≠ other := ((hmem other).mp (Fields.mem_names_of_get? hfound)).2
    rw [Fields.get?_erase_of_ne entries hid] at hfound
    obtain ⟨hkey, hlast⟩ := h.addedLast other found hfound
    exact ⟨hkey, hlast.concat_of_no_role (Op.not_adds_of_none rfl) rfl⟩
  · exact (h.joinsLast other ((hmem other).mp hother).1).concat fun hadds =>
      absurd hadds (Op.not_adds_of_none rfl)
  · rw [Fields.names_erase]
    exact h.ordered.sublist List.erase_sublist

theorem insert (h : Shows entries ops joined) (hadded : op.added? = some connection) :
    ∃ moments, Shows (Fields.insert entries connection.id connection) (ops ++ [op]) moments := by
  by_cases hold : connection.id ∈ Fields.names entries
  · exact ⟨joined, h.insert_over hadded hold⟩
  · exact ⟨_, h.insert_new hadded hold⟩

theorem step {roster : Roster} (h : Shows roster.entries ops joined) (hop : op.AddsAtMostOne) :
    ∃ moments, Shows (roster.step op).1.entries (ops ++ [op]) moments := by
  cases op with
  | add connection =>
    have hadded : (Op.add connection).added? = some connection := rfl
    exact entries_add roster connection ▸ h.insert hadded
  | addAndConnect connection =>
    have hadded : (Op.addAndConnect connection).added? = some connection := rfl
    exact entries_addAndConnect roster connection ▸ h.insert hadded
  | remove id => exact ⟨joined, entries_remove roster id ▸ h.erase id⟩
  | setRole id role => exact ⟨joined, entries_setRole roster id role ▸ h.modify_role id role⟩
  | connectAll role => exact ⟨joined, h.keep rfl nofun fun _ => rfl⟩
  | disconnectAll role => exact ⟨joined, h.keep rfl nofun fun _ => rfl⟩
  | registerAll factory definitions => exact hop.elim

end Shows

/-- A table whose entries are under the identifiers of their connections is told by these. -/
theorem entries_eq_map_all {roster : Roster}
    (hkeys : ∀ entry ∈ roster.entries, entry.2.id = entry.1) :
    roster.entries = roster.all.map (fun connection => (connection.id, connection)) := by
  rw [all, Fields.contents, List.map_map]
  refine (List.map_id _).symm.trans (List.map_congr_left fun entry hentry => ?_)
  exact Prod.ext (hkeys entry hentry).symm rfl

theorem names_entries_of_eq {roster : Roster}
    (h : roster.entries = roster.all.map (fun connection => (connection.id, connection))) :
    Fields.names roster.entries = roster.all.map Connection.id := by
  rw [Fields.names, h, List.map_map]
  rfl

theorem run_concat (roster : Roster) (ops : List Op) (op : Op) :
    (roster.run (ops ++ [op])).1 = ((roster.run ops).1.step op).1 := by
  induction ops generalizing roster with
  | nil => rfl
  | cons first rest ih => exact ih (roster.step first).1

/-- Histories grow at the end, where the table follows them one operation at a time. -/
theorem shows_run (links : Links) (hops : ∀ op ∈ ops, op.AddsAtMostOne) :
    ∃ joined, Shows (run ⟨[], links⟩ ops).1.entries ops joined := by
  induction ops using List.reverseRecOn with
  | nil =>
    have hnothing : ∀ id, ¬ Registered [] id := by
      rintro id ⟨front, op, back, hsplit, -⟩
      simp at hsplit
    refine ⟨fun _ => 0, fun id => ?_, nofun, nofun, .nil⟩
    exact iff_of_false List.not_mem_nil (hnothing id)
  | append_singleton ops op ih =>
    rw [List.forall_mem_append, List.forall_mem_singleton] at hops
    obtain ⟨joined, h⟩ := ih hops.1
    rw [run_concat]
    exact h.step hops.2

theorem firstWithRole?_eq (roster : Roster) (role : Role) :
    roster.firstWithRole? role = (roster.withRole role).head? := by
  rw [firstWithRole?, withRole, List.head?_filter]

/-- Every connection has one of the two roles. -/
theorem withRole_append_perm (roster : Roster) :
    (roster.withRole .admin ++ roster.withRole .client).Perm roster.all := by
  have hother : roster.withRole .client =
      roster.all.filter fun connection => !decide (connection.role = .admin) := by
    refine List.filter_congr fun connection _ => ?_
    cases connection.role <;> decide
  rw [hother]
  exact List.filter_append_perm _ _

/-- After every run from a roster without connections, each registered identifier is listed once,
with the connection that was added under it last and the role that it was given since. The
connections are in the order of the moments at which their identifiers joined last, and those of a
role are listed in this order, too. -/
theorem run_in_order_of_joining (links : Links) (ops : List Op)
    (hops : ∀ op ∈ ops, op.AddsAtMostOne) :
    let roster := (run ⟨[], links⟩ ops).1
    (roster.all.map Connection.id).Nodup ∧
    (∀ id, id ∈ roster.all.map Connection.id ↔ Registered ops id) ∧
    roster.entries = roster.all.map (fun connection => (connection.id, connection)) ∧
    (∃ joined : String → Nat,
      (∀ connection ∈ roster.all, JoinsLast ops connection.id (joined connection.id)) ∧
      roster.all.Pairwise fun first second => joined first.id < joined second.id) ∧
    (∀ connection ∈ roster.all, AddedLast ops connection.id connection) ∧
    (∀ role, (roster.withRole role).Sublist roster.all ∧
      (∀ connection, connection ∈ roster.withRole role ↔
        connection ∈ roster.all ∧ connection.role = role) ∧
      roster.firstWithRole? role = (roster.withRole role).head?) ∧
    (roster.withRole .admin ++ roster.withRole .client).Perm roster.all := by
  intro roster
  obtain ⟨joined, h⟩ := shows_run links hops
  have hfound : ∀ id connection, (id, connection) ∈ roster.entries →
      connection.id = id ∧ AddedLast ops id connection :=
    fun id connection hmem => h.addedLast id connection (Fields.get?_of_mem h.distinct hmem)
  have hentries : roster.entries =
      roster.all.map (fun connection => (connection.id, connection)) :=
    entries_eq_map_all fun entry hentry => (hfound entry.1 entry.2 hentry).1
  have hids := (names_entries_of_eq hentries).symm
  have hmem : ∀ connection ∈ roster.all, (connection.id, connection) ∈ roster.entries := by
    intro connection hconnection
    rw [hentries]
    exact List.mem_map_of_mem hconnection
  refine ⟨hids ▸ h.distinct, fun id => hids ▸ h.registered id, hentries, ⟨joined, ?_, ?_⟩,
    fun connection hconnection => (hfound _ _ (hmem connection hconnection)).2,
    fun role => ⟨List.filter_sublist, fun connection => ?_, firstWithRole?_eq roster role⟩,
    withRole_append_perm roster⟩
  · intro connection hconnection
    exact h.joinsLast connection.id (hids ▸ List.mem_map_of_mem hconnection)
  · have hordered := h.ordered
    rw [← hids, List.pairwise_map] at hordered
    exact hordered
  · rw [withRole, List.mem_filter, decide_eq_true_iff]

/-- A replaced connection keeps the first place, while the one that was taken out and added again
goes behind the one whose role was changed. -/
theorem run_in_order_of_joining_anew :
    let onLink (id : String) (link : Nat) : Connection := ⟨id, .tcp, .client, ⟨link⟩, "", true⟩
    let links : Links := [Link.plain, Link.plain, Link.plain]
    let ops : List Op := [.add (onLink "a" 0), .add (onLink "b" 1), .addAndConnect (onLink "c" 2),
      .setRole "c" .admin, .remove "b", .add (onLink "a" 1), .add (onLink "b" 0)]
    (∀ op ∈ ops, op.AddsAtMostOne) ∧
    (run ⟨[], links⟩ ops).1.all =
      [onLink "a" 1, { onLink "c" 2 with role := .admin }, onLink "b" 0] ∧
    (∃ joined : String → Nat,
      (JoinsLast ops "a" (joined "a") ∧ JoinsLast ops "c" (joined "c") ∧
        JoinsLast ops "b" (joined "b")) ∧
      joined "a" < joined "c" ∧ joined "c" < joined "b") ∧
    AddedLast ops "a" (onLink "a" 1) ∧
    AddedLast ops "c" { onLink "c" 2 with role := .admin } := by
  intro onLink links ops
  have hops : ∀ op ∈ ops, op.AddsAtMostOne := by simp [ops, Op.AddsAtMostOne]
  have hall : (run ⟨[], links⟩ ops).1.all =
      [onLink "a" 1, { onLink "c" 2 with role := .admin }, onLink "b" 0] := by decide +kernel
  obtain ⟨-, -, -, ⟨joined, hjoined, hordered⟩, hlast, -⟩ := run_in_order_of_joining links ops hops
  rw [hall] at hjoined hordered hlast
  simp only [List.forall_mem_cons, List.pairwise_cons] at hjoined hordered hlast
  exact ⟨hops, hall, ⟨joined, ⟨hjoined.1, hjoined.2.1, hjoined.2.2.1⟩, hordered.1.1,
    hordered.2.1.1⟩, hlast.1, hlast.2.1⟩

end RadioAdmin.Roster
